-- Which subscriptions stand: those that were accepted and have not been removed since. A bus lists just
-- these at every moment, whoever calls, from inside a delivery or not, and whatever is under way meanwhile.
import Mathlib
import Turnstile.Proofs.Bus.Callers
import Turnstile.Proofs.Bus.Present

namespace Turnstile

variable {α σ : Type}

/-! ## What a trail tells about subscriptions -/

namespace Occurrence

/-- The subscription that a topic has got. -/
def acceptedOn? (topic : String) : Occurrence α → Option (Subscription α)
  | .subscribed t s => if t = topic then some s else none
  | .refused .. | .unsubscribed .. | .began .. | .considered .. | .filtered .. | .called ..
  | .handled .. | .logged .. | .ended .. => none

/-- The handle that a subscriber has got. -/
def handedOut? : Occurrence α → Option Handle
  | .subscribed topic s => some ⟨topic, s.id⟩
  | .refused .. | .unsubscribed .. | .began .. | .considered .. | .filtered .. | .called ..
  | .handled .. | .logged .. | .ended .. => none

/-- The handle of an unsubscription that returned true. -/
def removed? : Occurrence α → Option Handle
  | .unsubscribed handle true => some handle
  | .unsubscribed _ false | .subscribed .. | .refused .. | .began .. | .considered .. | .filtered ..
  | .called .. | .handled .. | .logged .. | .ended .. => none

/-- It is about neither a new subscription nor one that is removed. -/
def IsAside (o : Occurrence α) : Prop := o.handedOut? = none ∧ o.removed? = none

end Occurrence

section
variable {trail : List (Occurrence α)} {t : String}

/-- The subscriptions that a topic has got so far. -/
def acceptedOn (topic : String) (trail : List (Occurrence α)) : List (Subscription α) :=
  trail.filterMap (·.acceptedOn? topic)

/-- The handles that subscribers have got so far. -/
def handedOut (trail : List (Occurrence α)) : List Handle := trail.filterMap (·.handedOut?)

/-- The handles of all unsubscriptions that returned true. -/
def removals (trail : List (Occurrence α)) : List Handle := trail.filterMap (·.removed?)

/-- The subscriptions of a topic that were accepted and have not been removed, in the order in which they
were accepted. -/
def standing (topic : String) (trail : List (Occurrence α)) : List (Subscription α) :=
  (acceptedOn topic trail).filter fun s => ⟨topic, s.id⟩ ∉ removals trail

theorem mem_handedOut_of_accepted {s : Subscription α} (h : s ∈ acceptedOn t trail) :
    ⟨t, s.id⟩ ∈ handedOut trail := by
  obtain ⟨o, ho, haccepted⟩ := List.mem_filterMap.1 h
  refine List.mem_filterMap.2 ⟨o, ho, ?_⟩
  cases o with
  | subscribed topic s' =>
    simp only [Occurrence.acceptedOn?, Option.ite_none_right_eq_some, Option.some.injEq] at haccepted
    obtain ⟨rfl, rfl⟩ := haccepted
    rfl
  | _ => cases haccepted

theorem mem_standing {s : Subscription α} :
    s ∈ standing t trail ↔ s ∈ acceptedOn t trail ∧ ⟨t, s.id⟩ ∉ removals trail := by
  simp [standing]

theorem standing_aside {o : Occurrence α} (ho : o.IsAside) (t : String) :
    standing t (trail ++ [o]) = standing t trail := by
  have haccepted : o.acceptedOn? t = none := by
    cases o with
    | subscribed topic s => cases ho.1
    | _ => rfl
  simp [standing, acceptedOn, removals, haccepted, ho.2]

theorem handedOut_aside {o : Occurrence α} (ho : o.IsAside) :
    handedOut (trail ++ [o]) = handedOut trail := by
  simp [handedOut, ho.1]

theorem removals_aside {o : Occurrence α} (ho : o.IsAside) :
    removals (trail ++ [o]) = removals trail := by
  simp [removals, ho.2]

/-- A subscription under a handle that was never removed stands behind those of its topic. -/
theorem standing_subscribed {topic : String} {s : Subscription α}
    (hnew : ⟨topic, s.id⟩ ∉ removals trail) (t : String) :
    standing t (trail ++ [.subscribed topic s]) =
      if t = topic then standing t trail ++ [s] else standing t trail := by
  have hremovals : removals (trail ++ [.subscribed topic s]) = removals trail := by
    simp [removals, Occurrence.removed?]
  unfold standing
  rw [hremovals]
  by_cases ht : t = topic
  · subst ht
    simp [acceptedOn, Occurrence.acceptedOn?, hnew]
  · simp [acceptedOn, Occurrence.acceptedOn?, ht, Ne.symm ht]

/-- A subscription that is removed stands no longer, and all others do. -/
theorem standing_removed (handle : Handle) (t : String) :
    standing t (trail ++ [.unsubscribed handle true]) =
      if t = handle.topic then (standing t trail).filter (·.id ≠ handle.id)
      else standing t trail := by
  have haccepted : acceptedOn t (trail ++ [.unsubscribed handle true]) = acceptedOn t trail := by
    simp [acceptedOn, Occurrence.acceptedOn?]
  have hremovals : removals (trail ++ [.unsubscribed handle true]) = removals trail ++ [handle] := by
    simp [removals, Occurrence.removed?]
  unfold standing
  rw [haccepted, hremovals]
  by_cases ht : t = handle.topic
  · rw [if_pos ht, List.filter_filter]
    refine List.filter_congr fun s _ => ?_
    have hsame : (⟨t, s.id⟩ : Handle) = handle ↔ s.id = handle.id := by
      rw [Handle.mk.injEq]
      exact and_iff_right ht
    simp [hsame, and_comm]
  · rw [if_neg ht]
    refine List.filter_congr fun s _ => ?_
    have hother : (⟨t, s.id⟩ : Handle) ≠ handle := fun heq => ht (congrArg Handle.topic heq)
    simp [hother]

end

/-! ## What a bus lists -/

namespace Bus

variable {b : Bus α} {handle : Handle}

/-- A topic is listed with its subscriptions, and only if it has any. -/
theorem WellFormed.lookup_topics (h : b.WellFormed) (t : String) :
    b.topics.lookup t = if b.onTopic t = [] then none else some (b.onTopic t) := by
  unfold onTopic
  cases hlookup : b.topics.lookup t with
  | none => rfl
  | some subs =>
    obtain ⟨before, later, hsplit, -⟩ := List.lookup_eq_some_iff.1 hlookup
    have hsubs : subs ≠ [] := h.inhabited (t, subs) (hsplit ▸ List.mem_append_right _ List.mem_cons_self)
    exact (if_neg hsubs).symm

/-- An unsubscription returns true exactly if the subscription of the handle is on its topic. -/
theorem unsubscribe_found : (b.unsubscribe handle).2 = true ↔
    ∃ s ∈ b.onTopic handle.topic, s.id = handle.id := by
  unfold unsubscribe
  by_cases hany : (b.onTopic handle.topic).any (fun s => decide (s.id = handle.id)) = true
  · rw [if_pos hany]
    simpa using hany
  · rw [if_neg hany]
    simpa using hany

/-- An unsubscription that returns false changes nothing. -/
theorem unsubscribe_missed (h : (b.unsubscribe handle).2 = false) : (b.unsubscribe handle).1 = b := by
  unfold unsubscribe at h ⊢
  split at h
  · cases h
  · rw [if_neg ‹_›]

/-- One subscription is taken out of its topic, and the others keep their order. -/
theorem unsubscribe_takes_out (h : b.WellFormed) {s : Subscription α}
    (hs : s ∈ b.onTopic handle.topic) (hid : s.id = handle.id) :
    ∃ before later, b.onTopic handle.topic = before ++ s :: later ∧
      (b.unsubscribe handle).1.onTopic handle.topic = before ++ later := by
  obtain ⟨before, later, hsplit⟩ := List.append_of_mem hs
  have hids := h.nodup handle.topic
  rw [hsplit, List.map_append, List.map_cons, List.nodup_append] at hids
  obtain ⟨-, hlater, hapart⟩ := hids
  have hbefore : ∀ s' ∈ before, s'.id ≠ handle.id := fun s' hs' =>
    hid ▸ hapart _ (List.mem_map_of_mem hs') _ List.mem_cons_self
  have hbehind : ∀ s' ∈ later, s'.id ≠ handle.id := fun s' hs' heq =>
    (List.nodup_cons.1 hlater).1 (List.mem_map.2 ⟨s', hs', heq.trans hid.symm⟩)
  refine ⟨before, later, hsplit, ?_⟩
  rw [onTopic_unsubscribe h, if_pos rfl, hsplit, List.filter_append,
    List.filter_eq_self.2 fun s' hs' => decide_eq_true (hbefore s' hs'),
    List.filter_cons_of_neg (by simp [hid]),
    List.filter_eq_self.2 fun s' hs' => decide_eq_true (hbehind s' hs')]

end Bus

/-! ## The books -/

namespace Scene

/-- The trail of a scene accounts for its bus: what is listed stands, handles are handed out once, and
only what was handed out is removed, once at most. -/
structure Accounted (scene : Scene α σ) : Prop where
  wellFormed : scene.bus.WellFormed
  present : ∀ t, scene.bus.onTopic t = standing t scene.trail
  taken : ∀ handle ∈ handedOut scene.trail, handle.id < scene.bus.next
  distinct : ((handedOut scene.trail).map (·.id)).Nodup
  removed : ∀ handle ∈ removals scene.trail, handle ∈ handedOut scene.trail
  once : (removals scene.trail).Nodup

variable {scene scene' : Scene α σ}

theorem accounted_empty (memory : σ) (logs : Bool) :
    ({ memory, logs } : Scene α σ).Accounted :=
  ⟨Bus.wellFormed_empty, fun _ => rfl, nofun, .nil, nofun, .nil⟩

namespace Accounted

theorem see (h : scene.Accounted) {o : Occurrence α} (ho : o.IsAside) :
    (scene.see o).Accounted := by
  obtain ⟨hwell, hpresent, htaken, hdistinct, hremoved, honce⟩ := h
  rw [← removals_aside ho] at honce
  have hhanded : handedOut (scene.see o).trail = handedOut scene.trail := handedOut_aside ho
  have hremovals : removals (scene.see o).trail = removals scene.trail := removals_aside ho
  refine ⟨hwell, fun t => (hpresent t).trans (standing_aside ho t).symm, ?_, ?_, ?_, honce⟩
  · rw [hhanded]
    exact htaken
  · rw [hhanded]
    exact hdistinct
  · rw [hhanded, hremovals]
    exact hremoved

theorem subscribe (h : scene.Accounted) (topic : String) (x : α) (level : Value) :
    (scene.subscribe topic x level).1.Accounted := by
  unfold Scene.subscribe
  cases hlevel : Bus.priority level with
  | error fault => exact h.see ⟨rfl, rfl⟩
  | ok q =>
    let s : Subscription α := ⟨scene.bus.next, q, x⟩
    have hfresh : ⟨topic, s.id⟩ ∉ removals scene.trail := fun hmem =>
      Nat.lt_irrefl _ (h.taken _ (h.removed _ hmem))
    have hhanded : handedOut (scene.trail ++ [.subscribed topic s]) =
        handedOut scene.trail ++ [⟨topic, s.id⟩] := by
      simp [handedOut, Occurrence.handedOut?]
    have hremovals : removals (scene.trail ++ [.subscribed topic s]) = removals scene.trail := by
      simp [removals, Occurrence.removed?]
    refine ⟨h.wellFormed.enroll topic q x, fun t => ?_, ?_, ?_, ?_, ?_⟩
    · refine (Bus.onTopic_enroll _ _ _ _ _).trans ?_
      rw [h.present]
      exact (standing_subscribed hfresh t).symm
    · show ∀ handle ∈ handedOut (scene.trail ++ [.subscribed topic s]), handle.id < scene.bus.next + 1
      rw [hhanded]
      intro handle hhandle
      rcases List.mem_append.1 hhandle with hold | hnew
      · exact Nat.lt_succ_of_lt (h.taken handle hold)
      · rw [List.mem_singleton.1 hnew]
        exact Nat.lt_succ_self _
    · show ((handedOut (scene.trail ++ [.subscribed topic s])).map (·.id)).Nodup
      rw [hhanded, List.map_append, List.nodup_append]
      refine ⟨h.distinct, List.nodup_singleton _, fun n hn n' hn' heq => ?_⟩
      obtain ⟨handle, hhandle, rfl⟩ := List.mem_map.1 hn
      rw [List.map_singleton, List.mem_singleton] at hn'
      exact absurd (h.taken handle hhandle) (by simp [heq, hn', s])
    · show ∀ handle ∈ removals (scene.trail ++ [.subscribed topic s]),
        handle ∈ handedOut (scene.trail ++ [.subscribed topic s])
      rw [hhanded, hremovals]
      exact fun handle hhandle => List.mem_append_left _ (h.removed handle hhandle)
    · show (removals (scene.trail ++ [.subscribed topic s])).Nodup
      rw [hremovals]
      exact h.once

/-- The subscription of a handle that is found was handed out and has not been removed. -/
theorem outstanding (h : scene.Accounted) {handle : Handle}
    (hfound : (scene.bus.unsubscribe handle).2 = true) :
    handle ∈ handedOut scene.trail ∧ handle ∉ removals scene.trail := by
  obtain ⟨s, hs, hid⟩ := Bus.unsubscribe_found.1 hfound
  rw [h.present, mem_standing, hid] at hs
  obtain ⟨haccepted, hkept⟩ := hs
  have hhanded := mem_handedOut_of_accepted haccepted
  rw [hid] at hhanded
  exact ⟨hhanded, hkept⟩

theorem unsubscribe (h : scene.Accounted) (handle : Handle) :
    (scene.unsubscribe handle).1.Accounted := by
  show ((({ scene with bus := (scene.bus.unsubscribe handle).1 } : Scene α σ).see
    (.unsubscribed handle (scene.bus.unsubscribe handle).2))).Accounted
  cases hfound : (scene.bus.unsubscribe handle).2 with
  | false =>
    rw [Bus.unsubscribe_missed hfound]
    exact h.see ⟨rfl, rfl⟩
  | true =>
    obtain ⟨hhandle, hkept⟩ := h.outstanding hfound
    have hnext : (scene.bus.unsubscribe handle).1.next = scene.bus.next := by
      unfold Bus.unsubscribe
      split <;> rfl
    have hhanded : handedOut (scene.trail ++ [.unsubscribed handle true]) = handedOut scene.trail := by
      simp [handedOut, Occurrence.handedOut?]
    have hremovals : removals (scene.trail ++ [.unsubscribed handle true]) =
        removals scene.trail ++ [handle] := by
      simp [removals, Occurrence.removed?]
    refine ⟨h.wellFormed.unsubscribe handle, fun t => ?_, ?_, ?_, ?_, ?_⟩
    · refine (Bus.onTopic_unsubscribe h.wellFormed handle t).trans ?_
      rw [h.present]
      exact (standing_removed handle t).symm
    · show ∀ handle' ∈ handedOut (scene.trail ++ [.unsubscribed handle true]),
        handle'.id < (scene.bus.unsubscribe handle).1.next
      rw [hhanded, hnext]
      exact h.taken
    · show ((handedOut (scene.trail ++ [.unsubscribed handle true])).map (·.id)).Nodup
      rw [hhanded]
      exact h.distinct
    · show ∀ handle' ∈ removals (scene.trail ++ [.unsubscribed handle true]),
        handle' ∈ handedOut (scene.trail ++ [.unsubscribed handle true])
      rw [hhanded, hremovals]
      intro handle' hmem
      rcases List.mem_append.1 hmem with hold | hnew
      · exact h.removed handle' hold
      · exact List.mem_singleton.1 hnew ▸ hhandle
    · show (removals (scene.trail ++ [.unsubscribed handle true])).Nodup
      rw [hremovals]
      exact List.nodup_append.2 ⟨h.once, List.nodup_singleton _, fun handle' hmem handle'' hnew heq =>
        hkept (List.mem_singleton.1 hnew ▸ heq ▸ hmem)⟩

end Accounted

end Scene

/-! ## Callers -/

/-- What the next small thing of a caller does to the scene. -/
inductive Touches (scene : Scene α σ) : Scene α σ → Prop where
  | remembers (memory : σ) : Touches scene { scene with memory := memory }
  | subscribes (topic : String) (x : α) (level : Value) :
    Touches scene (scene.subscribe topic x level).1
  | unsubscribes (handle : Handle) : Touches scene (scene.unsubscribe handle).1
  | sees {o : Occurrence α} (ho : o.IsAside) : Touches scene (scene.see o)
  | seesTwo {o o' : Occurrence α} (ho : o.IsAside) (ho' : o'.IsAside) :
    Touches scene ((scene.see o).see o')

section
variable {conduct : Conduct α σ} {c : Caller α σ} {scene scene' : Scene α σ} {m m' : Moment α σ}

theorem Touches.accounted (htouches : Touches scene scene') (h : scene.Accounted) :
    scene'.Accounted := by
  cases htouches with
  | remembers memory => exact ⟨h.wellFormed, h.present, h.taken, h.distinct, h.removed, h.once⟩
  | subscribes topic x level => exact h.subscribe topic x level
  | unsubscribes handle => exact h.unsubscribe handle
  | sees ho => exact h.see ho
  | seesTwo ho ho' => exact (h.see ho).see ho'

/-- The scene may stay as it is. -/
theorem touches_same (scene : Scene α σ) : Touches scene scene := .remembers scene.memory

theorem toContain_touches {p : Publishing} {o : Occurrence α} (ho : o.IsAside) (fault : Fault)
    (rest : List (Subscription α)) (frames : List (Frame α σ)) :
    Touches scene (Caller.toContain p fault rest frames (scene.see o)).2 := by
  show Touches scene (p.contain (scene.see o) fault).1
  unfold Publishing.contain
  split
  · exact .sees ho
  · split
    · exact .seesTwo ho ⟨rfl, rfl⟩
    · exact .sees ho

theorem step_touches {next : Caller α σ × Scene α σ} (hstep : c.step conduct scene = some next) :
    Touches scene next.2 := by
  obtain ⟨control, frames⟩ := c
  cases control with
  | run program =>
    cases program <;> obtain rfl := Option.some.inj hstep
    case finish => exact touches_same scene
    case raise => exact touches_same scene
    case consult => exact touches_same scene
    case remember => exact .remembers _
    case subscribe => exact .subscribes ..
    case unsubscribe => exact .unsubscribes _
    case publish => exact .sees ⟨rfl, rfl⟩
  | visit p subs =>
    cases subs with
    | nil =>
      obtain rfl := Option.some.inj hstep
      exact touches_same scene
    | cons s rest =>
      simp only [Caller.step] at hstep
      split at hstep <;> obtain rfl := Option.some.inj hstep
      · exact .seesTwo ⟨rfl, rfl⟩ ⟨rfl, rfl⟩
      · exact .sees ⟨rfl, rfl⟩
  | give result =>
    rcases frames with _ | ⟨_ | _ | _, frames⟩
    case nil => cases hstep
    case cons.asking =>
      cases result with
      | error fault =>
        obtain rfl := Option.some.inj hstep
        exact toContain_touches ⟨rfl, rfl⟩ _ _ _
      | ok v =>
        simp only [Caller.step] at hstep
        split at hstep <;> obtain rfl := Option.some.inj hstep
        · exact .seesTwo ⟨rfl, rfl⟩ ⟨rfl, rfl⟩
        · exact .sees ⟨rfl, rfl⟩
    case cons.calling =>
      cases result with
      | error fault =>
        obtain rfl := Option.some.inj hstep
        exact toContain_touches ⟨rfl, rfl⟩ _ _ _
      | ok v =>
        obtain rfl := Option.some.inj hstep
        exact .sees ⟨rfl, rfl⟩
    case cons.publishing => cases hstep
  | leave p fault =>
    rcases frames with _ | ⟨_ | _ | _, frames⟩
    case cons.publishing =>
      obtain rfl := Option.some.inj hstep
      exact .sees ⟨rfl, rfl⟩
    all_goals cases hstep

theorem next_accounted (hnext : Moment.Next conduct m m') (h : m.scene.Accounted) :
    m'.scene.Accounted := by
  cases hnext with
  | comes program => exact h
  | moves hcaller hstep => exact (step_touches hstep).accounted h
  | diverted hcaller program' => exact h

theorem reaches_accounted (hreaches : Moment.Reaches conduct m m') (h : m.scene.Accounted) :
    m'.scene.Accounted := by
  induction hreaches with
  | refl => exact h
  | tail _ hnext ih => exact next_accounted hnext ih

end

/-! ## The law -/

/-- How things stand with the subscriptions at some moment, and what comes of a call at this moment. -/
structure Scene.Stands (scene : Scene α σ) : Prop where
  /-- Each topic has the subscriptions that stand, in the order in which they were accepted, and it is
  listed once, or not at all if there are none. -/
  listed : ∀ t, scene.bus.topics.lookup t =
    if standing t scene.trail = [] then none else some (standing t scene.trail)
  inhabited : ∀ p ∈ scene.bus.topics, p.2 ≠ []
  topics : (scene.bus.topics.map (·.1)).Nodup
  /-- Of all calls so far that were to remove a subscription, one at most has returned true. -/
  once : ((removals scene.trail).map (·.id)).Nodup
  /-- A handle is found exactly if its subscription stands on its topic. -/
  found : ∀ handle, (scene.unsubscribe handle).2 = true ↔
    ∃ s ∈ standing handle.topic scene.trail, s.id = handle.id
  /-- Then this subscription is removed alone, and the others keep their order. -/
  removes : ∀ handle, (scene.unsubscribe handle).2 = true →
    ∃ before s later, s.id = handle.id ∧ standing handle.topic scene.trail = before ++ s :: later ∧
      (scene.unsubscribe handle).1.bus.onTopic handle.topic = before ++ later ∧
      ∀ t ≠ handle.topic, (scene.unsubscribe handle).1.bus.onTopic t = standing t scene.trail
  misses : ∀ handle, (scene.unsubscribe handle).2 = false →
    (scene.unsubscribe handle).1.bus = scene.bus
  /-- A subscription that is accepted comes behind those of its topic, under a handle that nobody had. -/
  accepts : ∀ topic x level handle, (scene.subscribe topic x level).2 = .ok handle →
    ∃ q, Bus.priority level = .ok q ∧ handle.topic = topic ∧
      handle.id ∉ (handedOut scene.trail).map (·.id) ∧
      ∀ t, (scene.subscribe topic x level).1.bus.onTopic t =
        if t = topic then standing t scene.trail ++ [⟨handle.id, q, x⟩] else standing t scene.trail
  rejects : ∀ topic x level fault, (scene.subscribe topic x level).2 = .error fault →
    Bus.priority level = .error fault ∧ (scene.subscribe topic x level).1.bus = scene.bus

namespace Scene.Accounted

variable {scene : Scene α σ}

/-- Handles that were handed out differ by their ids, so those that have removed something do. -/
theorem removed_once (h : scene.Accounted) : ((removals scene.trail).map (·.id)).Nodup :=
  h.once.map_on fun _ hmem _ hmem' heq =>
    List.inj_on_of_nodup_map h.distinct (h.removed _ hmem) (h.removed _ hmem') heq

theorem accepts (h : scene.Accounted) {topic : String} {x : α} {level : Value} {handle : Handle}
    (hok : (scene.subscribe topic x level).2 = .ok handle) :
    ∃ q, Bus.priority level = .ok q ∧ handle.topic = topic ∧
      handle.id ∉ (handedOut scene.trail).map (·.id) ∧
      ∀ t, (scene.subscribe topic x level).1.bus.onTopic t =
        if t = topic then standing t scene.trail ++ [⟨handle.id, q, x⟩]
        else standing t scene.trail := by
  unfold Scene.subscribe at hok ⊢
  cases hlevel : Bus.priority level with
  | error fault =>
    rw [hlevel] at hok
    cases hok
  | ok q =>
    rw [hlevel] at hok
    obtain rfl := Except.ok.inj hok
    refine ⟨q, rfl, rfl, fun hmem => ?_, fun t => ?_⟩
    · obtain ⟨handle, hhandle, hid⟩ := List.mem_map.1 hmem
      exact absurd (h.taken handle hhandle) (by simp [hid, Bus.enroll])
    · rw [← h.present]
      exact Bus.onTopic_enroll _ _ _ _ _

theorem rejects {topic : String} {x : α} {level : Value} {fault : Fault}
    (herror : (scene.subscribe topic x level).2 = .error fault) :
    Bus.priority level = .error fault ∧ (scene.subscribe topic x level).1.bus = scene.bus := by
  unfold Scene.subscribe at herror ⊢
  cases hlevel : Bus.priority level with
  | error fault' =>
    rw [hlevel] at herror
    exact ⟨congrArg Except.error (Except.error.inj herror), rfl⟩
  | ok q =>
    rw [hlevel] at herror
    cases herror

theorem removes (h : scene.Accounted) {handle : Handle}
    (hfound : (scene.unsubscribe handle).2 = true) :
    ∃ before s later, s.id = handle.id ∧ standing handle.topic scene.trail = before ++ s :: later ∧
      (scene.unsubscribe handle).1.bus.onTopic handle.topic = before ++ later ∧
      ∀ t ≠ handle.topic, (scene.unsubscribe handle).1.bus.onTopic t = standing t scene.trail := by
  obtain ⟨s, hs, hid⟩ := Bus.unsubscribe_found.1 hfound
  obtain ⟨before, later, hsplit, hout⟩ := Bus.unsubscribe_takes_out h.wellFormed hs hid
  refine ⟨before, s, later, hid, (h.present _).symm.trans hsplit, hout, fun t ht => ?_⟩
  exact ((Bus.onTopic_unsubscribe h.wellFormed handle t).trans (if_neg ht)).trans (h.present t)

theorem stands (h : scene.Accounted) : scene.Stands where
  listed t := by
    rw [h.wellFormed.lookup_topics, h.present]
  inhabited := h.wellFormed.inhabited
  topics := h.wellFormed.topics
  once := h.removed_once
  found handle := by
    rw [← h.present]
    exact Bus.unsubscribe_found
  removes _ := h.removes
  misses _ := Bus.unsubscribe_missed
  accepts _ _ _ _ := h.accepts
  rejects _ _ _ _ := rejects

end Scene.Accounted

/-- Whoever calls a bus and whenever, from inside a delivery or not, and whatever interrupts whom: at every
moment just those subscriptions are listed that were accepted and have not been removed, and calls come to
what they should. A program that is run to its end at some moment is one of the callers. -/
theorem subscriptions_stand_until_they_are_removed (conduct : Conduct α σ) (memory : σ)
    (logs : Bool) :
    (∀ m, Moment.Reaches conduct { scene := { memory, logs } } m → m.scene.Stands) ∧
    ∀ (m : Moment α σ) (program : Program α σ) (depth : Nat) (scene' : Scene α σ)
      (result : Except Fault Value),
      program.run (publish conduct depth) m.scene = some (scene', result) →
        Moment.Reaches conduct m ⟨m.callers ++ [⟨.give result, []⟩], scene'⟩ :=
  ⟨fun _ hreaches => (reaches_accounted hreaches (Scene.accounted_empty memory logs)).stands,
    fun _ _ _ _ _ hrun => run_reaches hrun⟩

/-- A subscriber that unsubscribes itself when it is told anything. -/
def fleeting : Conduct Unit Unit where
  filter _ := none
  handler _ _ := .unsubscribe ⟨"t", 0⟩ fun found => .finish (.bool found)

/-- Its topic is gone after the first publishing, and nobody can remove it again. -/
theorem a_subscriber_leaves_once :
    let program : Program Unit Unit := .subscribe "t" () (.int 3) fun _ =>
      .publish "t" .null fun _ => .unsubscribe ⟨"t", 0⟩ fun found => .finish (.bool found)
    ∃ scene' result, program.run (publish fleeting 1) { memory := () } = some (scene', result) ∧
      scene'.Stands ∧ result.toOption.map Value.isTrue = some false ∧
      scene'.bus.topics.isEmpty = true ∧ removals scene'.trail = [⟨"t", 0⟩] := by
  intro program
  have hseen : (program.run (publish fleeting 1) { memory := () }).map (fun ran =>
      (ran.2.toOption.map Value.isTrue, ran.1.bus.topics.isEmpty, removals ran.1.trail)) =
        some (some false, true, [⟨"t", 0⟩]) := by
    cbv
  obtain ⟨hstands, hreaches⟩ := subscriptions_stand_until_they_are_removed fleeting () true
  cases hrun : program.run (publish fleeting 1) { memory := () } with
  | none =>
    rw [hrun] at hseen
    cases hseen
  | some ran =>
    obtain ⟨scene', result⟩ := ran
    rw [hrun] at hseen
    obtain ⟨hresult, hleft⟩ := Prod.mk.inj (Option.some.inj hseen)
    obtain ⟨htopics, hremovals⟩ := Prod.mk.inj hleft
    exact ⟨scene', result, rfl, hstands _ (hreaches _ program 1 scene' result hrun), hresult,
      htopics, hremovals⟩

end Turnstile
