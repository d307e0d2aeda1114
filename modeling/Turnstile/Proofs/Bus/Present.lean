-- Who is present on a topic: all who have subscribed to it and have not been removed since, in the order
-- in which they subscribed. A publishing sees them by rising priority.
import Mathlib.Data.List.Nodup
import Mathlib.Data.List.Sublists
import Turnstile.Bus.Delivery

namespace Turnstile

variable {α : Type}

/-! ## The order of a publishing -/

/-- A list has the subscriptions of another one by rising priority, and equal ones in the order in which
they stand there. -/
structure ByPriority (present considered : List (Subscription α)) : Prop where
  same : considered.Perm present
  rising : considered.Pairwise fun x y => x.priority ≤ y.priority
  ties : ∀ q : Rat, (considered.filter fun s => s.priority = q) = present.filter fun s => s.priority = q

theorem byPriority_inOrder (b : Bus α) (topic : String) :
    ByPriority (b.onTopic topic) (b.inOrder topic) := by
  have htrans : ∀ x y z : Subscription α, decide (x.priority ≤ y.priority) = true →
      decide (y.priority ≤ z.priority) = true → decide (x.priority ≤ z.priority) = true := by
    intro x y z hxy hyz
    simp only [decide_eq_true_eq] at hxy hyz ⊢
    exact Rat.le_trans hxy hyz
  have htotal : ∀ x y : Subscription α,
      (decide (x.priority ≤ y.priority) || decide (y.priority ≤ x.priority)) = true := by
    intro x y
    simpa using Rat.le_total
  have hsame : (b.inOrder topic).Perm (b.onTopic topic) := List.mergeSort_perm _ _
  refine ⟨hsame, ?_, fun q => ?_⟩
  · simpa [Bus.inOrder] using List.pairwise_mergeSort htrans htotal (b.onTopic topic)
  · -- subscriptions of one priority are sorted as they stand, so sorting leaves them in their order
    have hlevel : ((b.onTopic topic).filter fun s => s.priority = q).Pairwise
        fun x y => decide (x.priority ≤ y.priority) = true := by
      refine List.pairwise_of_forall_mem_list fun x hx y hy => ?_
      simp only [List.mem_filter, decide_eq_true_eq] at hx hy ⊢
      exact hx.2.trans hy.2.symm ▸ Rat.le_refl
    have hkept : ((b.onTopic topic).filter fun s => s.priority = q).Sublist (b.inOrder topic) :=
      List.sublist_mergeSort htrans htotal hlevel List.filter_sublist
    have hfiltered := hkept.filter fun s => s.priority = q
    rw [List.filter_filter] at hfiltered
    simp only [Bool.and_self] at hfiltered
    exact (hfiltered.eq_of_length (hsame.filter _).length_eq.symm).symm

theorem ByPriority.nodup {present considered : List (Subscription α)}
    (h : ByPriority present considered) (hids : (present.map (·.id)).Nodup) :
    (considered.map (·.id)).Nodup := (h.same.map _).nodup_iff.2 hids

namespace Bus

variable {b : Bus α} {topic t : String} {handle : Handle}

/-! ## Well-formed buses -/

/-- All subscriptions of a bus. -/
def subscriptions (b : Bus α) : List (Subscription α) := b.topics.flatMap (·.2)

/-- Each topic is listed once, and only if it has subscriptions; these differ by their ids, which are
all taken. -/
structure WellFormed (b : Bus α) : Prop where
  topics : (b.topics.map (·.1)).Nodup
  inhabited : ∀ p ∈ b.topics, p.2 ≠ []
  ids : (b.subscriptions.map (·.id)).Nodup
  taken : ∀ s ∈ b.subscriptions, s.id < b.next

theorem wellFormed_empty : ({} : Bus α).WellFormed := ⟨.nil, nofun, .nil, nofun⟩

theorem onTopic_sublist (topics : List (String × List (Subscription α))) (t : String) :
    ((topics.lookup t).getD []).Sublist (topics.flatMap (·.2)) := by
  induction topics with
  | nil => exact List.nil_sublist _
  | cons p rest ih =>
    obtain ⟨k, subs⟩ := p
    rw [List.lookup_cons, List.flatMap_cons]
    by_cases hk : t = k
    · subst hk
      simp
    · simp only [beq_false_of_ne hk]
      exact ih.trans (List.sublist_append_right _ _)

/-- No subscription is present twice. -/
theorem WellFormed.nodup (h : b.WellFormed) (t : String) : ((b.onTopic t).map (·.id)).Nodup :=
  h.ids.sublist ((onTopic_sublist b.topics t).map _)

/-! ## Subscribing -/

theorem lookup_add (topics : List (String × List (Subscription α))) (topic t : String)
    (s : Subscription α) : (add topics topic s).lookup t =
      if t = topic then some ((topics.lookup t).getD [] ++ [s]) else topics.lookup t := by
  induction topics with
  | nil =>
    by_cases ht : t = topic
    · simp [add, ht]
    · simp [add, List.lookup_cons, beq_false_of_ne ht, ht]
  | cons p rest ih =>
    obtain ⟨k, subs⟩ := p
    unfold add
    by_cases hk : k = topic
    · subst hk
      by_cases ht : t = k
      · simp [ht]
      · simp [List.lookup_cons, beq_false_of_ne ht, ht]
    · rw [if_neg hk, List.lookup_cons, List.lookup_cons, ih]
      by_cases ht : t = k
      · subst ht
        simp [hk]
      · simp [beq_false_of_ne ht]

theorem onTopic_enroll (b : Bus α) (topic t : String) (q : Rat) (x : α) :
    (b.enroll topic q x).1.onTopic t =
      if t = topic then b.onTopic t ++ [⟨b.next, q, x⟩] else b.onTopic t := by
  unfold onTopic enroll
  rw [lookup_add]
  split <;> rfl

theorem keys_add (topics : List (String × List (Subscription α))) (topic : String)
    (s : Subscription α) : (add topics topic s).map (·.1) =
      if topic ∈ topics.map (·.1) then topics.map (·.1) else topics.map (·.1) ++ [topic] := by
  induction topics with
  | nil => rfl
  | cons p rest ih =>
    obtain ⟨k, subs⟩ := p
    unfold add
    by_cases hk : k = topic
    · simp [hk]
    · rw [if_neg hk, List.map_cons, ih, List.map_cons]
      by_cases hmem : topic ∈ rest.map (·.1)
      · simp [hmem]
      · simp [hmem, Ne.symm hk]

theorem subscriptions_add (topics : List (String × List (Subscription α))) (topic : String)
    (s : Subscription α) :
    ((add topics topic s).flatMap (·.2)).Perm (topics.flatMap (·.2) ++ [s]) := by
  induction topics with
  | nil => exact .refl _
  | cons p rest ih =>
    obtain ⟨k, subs⟩ := p
    unfold add
    split
    · simp only [List.flatMap_cons, List.append_assoc]
      exact (List.perm_append_comm).append_left subs
    · simp only [List.flatMap_cons, List.append_assoc]
      exact ih.append_left subs

theorem inhabited_add {topics : List (String × List (Subscription α))}
    (h : ∀ p ∈ topics, p.2 ≠ []) (topic : String) (s : Subscription α) :
    ∀ p ∈ add topics topic s, p.2 ≠ [] := by
  induction topics with
  | nil => simp [add]
  | cons p rest ih =>
    obtain ⟨k, subs⟩ := p
    obtain ⟨hsubs, hrest⟩ := List.forall_mem_cons.1 h
    unfold add
    split
    · exact List.forall_mem_cons.2 ⟨by simp, hrest⟩
    · exact List.forall_mem_cons.2 ⟨hsubs, ih hrest⟩

theorem WellFormed.enroll (h : b.WellFormed) (topic : String) (q : Rat) (x : α) :
    (b.enroll topic q x).1.WellFormed := by
  have hperm : (b.enroll topic q x).1.subscriptions.Perm (b.subscriptions ++ [⟨b.next, q, x⟩]) :=
    subscriptions_add _ _ _
  refine ⟨?_, inhabited_add h.inhabited topic _, ?_, fun s hs => ?_⟩
  · show ((add _ _ _).map _).Nodup
    rw [keys_add]
    split
    · exact h.topics
    · rename_i hnew
      exact List.nodup_append.2 ⟨h.topics, List.nodup_singleton _, fun k hk l hl heq =>
        hnew (List.mem_singleton.1 hl ▸ heq ▸ hk)⟩
  · rw [(hperm.map _).nodup_iff, List.map_append]
    refine List.nodup_append.2 ⟨h.ids, List.nodup_singleton _, fun k hk l hl heq => ?_⟩
    obtain ⟨s, hs, rfl⟩ := List.mem_map.1 hk
    obtain rfl := List.mem_singleton.1 hl
    exact Nat.lt_irrefl _ (heq ▸ h.taken s hs)
  · show s.id < b.next + 1
    rcases List.mem_append.1 (hperm.mem_iff.1 hs) with hold | hnew
    · exact Nat.lt_succ_of_lt (h.taken s hold)
    · obtain rfl := List.mem_singleton.1 hnew
      exact Nat.lt_succ_self _

/-! ## Unsubscribing -/

theorem without_of_ne {subs : List (Subscription α)} (ht : t ≠ handle.topic) :
    without handle (t, subs) = some (t, subs) := if_neg ht

theorem without_self {subs : List (Subscription α)} : without handle (handle.topic, subs) =
    if subs.filter (·.id ≠ handle.id) = [] then none
    else some (handle.topic, subs.filter (·.id ≠ handle.id)) := by
  simp only [without, if_true]
  split
  · rename_i hnil
    rw [if_pos hnil]
  · rename_i rest hrest
    rw [if_neg hrest]

theorem without_key {p p' : String × List (Subscription α)} (h : without handle p = some p') :
    p'.1 = p.1 ∧ p'.2.Sublist p.2 ∧ (p.2 ≠ [] → p'.2 ≠ []) := by
  obtain ⟨t, subs⟩ := p
  by_cases ht : t = handle.topic
  · subst ht
    rw [without_self] at h
    split at h
    · cases h
    · rename_i hleft
      obtain rfl := Option.some.inj h
      exact ⟨rfl, List.filter_sublist, fun _ => hleft⟩
  · rw [without_of_ne ht] at h
    obtain rfl := Option.some.inj h
    exact ⟨rfl, .refl _, id⟩

theorem lookup_without {topics : List (String × List (Subscription α))}
    (hkeys : (topics.map (·.1)).Nodup) (handle : Handle) (t : String) :
    ((topics.filterMap (without handle)).lookup t).getD [] =
      if t = handle.topic then ((topics.lookup t).getD []).filter (·.id ≠ handle.id)
      else (topics.lookup t).getD [] := by
  induction topics with
  | nil => split <;> rfl
  | cons p rest ih =>
    obtain ⟨k, subs⟩ := p
    obtain ⟨hk, hrest⟩ := List.nodup_cons.1 hkeys
    replace ih := ih hrest
    by_cases hkt : k = handle.topic
    · subst hkt
      rw [List.filterMap_cons, without_self]
      by_cases ht : t = handle.topic
      · subst ht
        -- the topic is listed nowhere else
        have hnone : rest.lookup handle.topic = none := by
          rw [List.lookup_eq_none_iff]
          intro p hp
          exact bne_iff_ne.2 fun heq => hk (List.mem_map.2 ⟨p, hp, heq.symm⟩)
        rw [if_pos rfl, hnone] at ih
        by_cases hleft : subs.filter (·.id ≠ handle.id) = []
        · rw [if_pos hleft, if_pos rfl]
          simp only [List.lookup_cons_self, Option.getD_some, hleft]
          exact ih
        · rw [if_neg hleft, if_pos rfl]
          simp
      · rw [if_neg ht] at ih ⊢
        split
        · simp only [List.lookup_cons, beq_false_of_ne ht]
          exact ih
        · rename_i heq
          split at heq
          · cases heq
          · obtain rfl := Option.some.inj heq
            simp only [List.lookup_cons, beq_false_of_ne ht]
            exact ih
    · rw [List.filterMap_cons, without_of_ne hkt]
      by_cases ht : t = k
      · subst ht
        simp [hkt]
      · simp only [List.lookup_cons, beq_false_of_ne ht]
        exact ih

theorem without_sublist (topics : List (String × List (Subscription α))) (handle : Handle) :
    ((topics.filterMap (without handle)).map (·.1)).Sublist (topics.map (·.1)) ∧
      ((topics.filterMap (without handle)).flatMap (·.2)).Sublist (topics.flatMap (·.2)) := by
  induction topics with
  | nil => exact ⟨.refl _, .refl _⟩
  | cons p rest ih =>
    cases hleft : without handle p with
    | none =>
      rw [List.filterMap_cons_none hleft]
      exact ⟨ih.1.cons _, ih.2.trans (List.sublist_append_right _ _)⟩
    | some p' =>
      obtain ⟨hkey, hsubs, -⟩ := without_key hleft
      rw [List.filterMap_cons_some hleft, List.map_cons, List.map_cons, hkey]
      exact ⟨ih.1.cons_cons _, hsubs.append ih.2⟩

theorem unsubscribe_topics (b : Bus α) (handle : Handle) :
    (b.unsubscribe handle).1.topics = b.topics.filterMap (without handle) ∨
      (b.unsubscribe handle).1 = b ∧ ∀ s ∈ b.onTopic handle.topic, s.id ≠ handle.id := by
  unfold unsubscribe
  by_cases hany : (b.onTopic handle.topic).any (fun s => decide (s.id = handle.id)) = true
  · left
    rw [if_pos hany]
  · right
    rw [if_neg hany]
    simpa using hany

/-- The subscription of a handle is removed from its topic, and nothing else. -/
theorem onTopic_unsubscribe (h : b.WellFormed) (handle : Handle) (t : String) :
    (b.unsubscribe handle).1.onTopic t =
      if t = handle.topic then (b.onTopic t).filter (·.id ≠ handle.id) else b.onTopic t := by
  rcases b.unsubscribe_topics handle with htopics | ⟨hsame, hnone⟩
  · unfold onTopic
    rw [htopics]
    exact lookup_without h.topics handle t
  · rw [hsame]
    split
    · rename_i ht
      subst ht
      exact (List.filter_eq_self.2 fun s hs => decide_eq_true (hnone s hs)).symm
    · rfl

theorem WellFormed.unsubscribe (h : b.WellFormed) (handle : Handle) :
    (b.unsubscribe handle).1.WellFormed := by
  have hnext : (b.unsubscribe handle).1.next = b.next := by
    unfold Bus.unsubscribe
    split <;> rfl
  rcases b.unsubscribe_topics handle with htopics | ⟨hsame, -⟩
  · obtain ⟨hkeys, hsubs⟩ := without_sublist b.topics handle
    rw [← htopics] at hkeys hsubs
    refine ⟨h.topics.sublist hkeys, fun p hp => ?_, h.ids.sublist (hsubs.map _), fun s hs => ?_⟩
    · rw [htopics] at hp
      obtain ⟨p₀, hp₀, hleft⟩ := List.mem_filterMap.1 hp
      exact (without_key hleft).2.2 (h.inhabited p₀ hp₀)
    · rw [hnext]
      exact h.taken s (hsubs.subset hs)
  · exact hsame.symm ▸ h

end Bus
end Turnstile
