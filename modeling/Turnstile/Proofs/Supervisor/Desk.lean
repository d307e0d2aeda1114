-- Who waits for whose answer: the instances with their mailboxes on one side, the calls that ask
-- them on the other. A call that waits stands once in the mailbox of its instance, until its turn
-- comes, the instance stops, or the caller gives up.
import Mathlib.Data.List.Nodup
import Mathlib.Logic.Relation
import Mathlib.Tactic.ByContra
import Turnstile.Proofs.Instance.Queries

namespace Turnstile

/-- What a call knows that asks an instance: whom it asks, the answer once there is one, and whether
the caller still waits for it. -/
structure Reply where
  task : Nat
  result : Option (Except Fault Answer)
  waits : Bool

/-- The instances, and the calls with what those know that ask. -/
structure Desk where
  insts : List Instance
  replies : List (Option Reply)

/-- What stands in a list after something was added at its end. -/
theorem concat_get? {α : Type} {l : List α} {x y : α} {n : Nat} (h : (l ++ [x])[n]? = some y) :
    l[n]? = some y ∨ n = l.length ∧ y = x := by
  rw [List.getElem?_append] at h
  split at h
  · exact .inl h
  · obtain ⟨hzero, hnew⟩ := List.getElem?_eq_some_iff.1 h
    simp only [List.length_singleton, Nat.lt_one_iff] at hzero
    exact .inr ⟨by omega, by simpa [hzero] using hnew.symm⟩

theorem Instance.waiting_post {i j : Instance} {r : Request} (hpost : i.post r = .ok j) :
    i.alive = true ∧ j.alive = true ∧ j.waiting = i.waiting ++ r.waiting?.toList := by
  unfold Instance.post at hpost
  split at hpost
  · rename_i halive
    obtain rfl := Except.ok.inj hpost
    refine ⟨halive, halive, ?_⟩
    unfold Instance.waiting
    rw [List.filterMap_append]
    cases hr : r.waiting? <;> simp [hr]
  · cases hpost

theorem Instance.waiting_abandon (i : Instance) (c : Nat) :
    (i.abandon c).waiting = i.waiting.filter (· ≠ c) := by
  unfold Instance.waiting Instance.abandon
  induction i.mailbox with
  | nil => rfl
  | cons r requests ih =>
    rw [List.map_cons, List.filterMap_cons, List.filterMap_cons, ih]
    cases r with
    | query call question abandoned =>
      cases abandoned with
      | true => rfl
      | false =>
        by_cases hc : call = c
        · simp [Request.waiting?, hc]
        · have hdiff : (call == c) = false := beq_eq_false_iff_ne.2 hc
          simp [Request.waiting?, hc, hdiff]
    | transition event payload => rfl
    | stop => rfl

namespace Desk

variable {quits : Nat → Prop} {d d' d'' : Desk} {t u c b : Nat} {i j : Instance} {due : List Nat}

/-- A call waits for the answer of a task. -/
def Awaits (d : Desk) (c t : Nat) : Prop := d.replies[c]? = some (some ⟨t, none, true⟩)

/-- The calls that wait, as the mailbox of a task has them. -/
def waiting (d : Desk) (t : Nat) : List Nat := (d.insts[t]?.map Instance.waiting).getD []

def set (d : Desk) (t : Nat) (i : Instance) : Desk := { d with insts := d.insts.set t i }

/-- Gives a call that waits its answer. -/
def resolve (d : Desk) (c : Nat) (result : Except Fault Answer) : Desk :=
  match d.replies[c]? with
  | some (some ⟨t, none, true⟩) =>
    { d with replies := d.replies.set c (some ⟨t, some result, false⟩) }
  | _ => d

/-- A caller gives up. -/
def giveUp (d : Desk) (c t : Nat) (result : Option (Except Fault Answer)) : Desk where
  insts := d.insts.modify t fun i => i.abandon c
  replies := d.replies.set c (some ⟨t, result, false⟩)

/-! ## Moves -/

/-- A move that concerns nobody who waits. -/
inductive Small (d : Desk) : Desk → Prop where
  | post {t : Nat} {i j : Instance} {r : Request} (hi : d.insts[t]? = some i)
    (hr : r.waiting? = none) (hpost : i.post r = .ok j) : Small d (d.set t j)
  | call : Small d { d with replies := d.replies ++ [none] }
  | refuse (t : Nat) : Small d { d with replies := d.replies ++ [some ⟨t, none, false⟩] }
  | create {i : Instance} (halive : i.alive = true) (hmailbox : i.mailbox = []) :
    Small d { d with insts := d.insts ++ [i] }

abbrev Smalls := Relation.ReflTransGen Small

/-- Answers are given in their order, while requests that ask nothing arrive. -/
inductive Gives : List (Nat × Except Fault Answer) → Desk → Desk → Prop where
  | done (d : Desk) : Gives [] d d
  | small {given : List (Nat × Except Fault Answer)} {d d' d'' : Desk} (hsmall : Small d d')
    (hrest : Gives given d' d'') : Gives given d d''
  | give {c : Nat} {result : Except Fault Answer} {rest : List (Nat × Except Fault Answer)}
    {d d'' : Desk} (hrest : Gives rest (d.resolve c result) d'') :
    Gives ((c, result) :: rest) d d''

theorem Gives.smalls {given : List (Nat × Except Fault Answer)} (hs : Smalls d d')
    (hrest : Gives given d' d'') : Gives given d d'' := by
  induction hs using Relation.ReflTransGen.head_induction_on with
  | refl => exact hrest
  | head hsmall _ ih => exact .small hsmall ih

/-- What a deed does to the desk, in which some callers may give up. -/
inductive Next (quits : Nat → Prop) (d : Desk) : Desk → Prop where
  | smalls {d' : Desk} (hs : Smalls d d') : Next quits d d'
  | ask {t : Nat} {i j : Instance} {question : Question} (hi : d.insts[t]? = some i)
    (hpost : i.post (.query d.replies.length question false) = .ok j) :
    Next quits d { d.set t j with replies := d.replies ++ [some ⟨t, none, true⟩] }
  | giveUp {c t : Nat} {result : Option (Except Fault Answer)} (hquits : quits c)
    (hreply : d.replies[c]? = some (some ⟨t, result, true⟩)) : Next quits d (d.giveUp c t result)
  | feed {t : Nat} {i : Instance} {d' : Desk} (s : Stimulus) (hi : d.insts[t]? = some i)
    (hgives : Gives (answers (i.step s).2) (d.set t (i.step s).1) d') : Next quits d d'

/-! ## Who waits stands in one mailbox -/

/-- Who waits stands once in the mailbox of the instance that it asks, but for those whose answers
are due, which task `b` is giving. Instances that stopped have nobody wait. -/
structure Answerable (d : Desk) (b : Nat) (due : List Nat) : Prop where
  nodup : ∀ t, (d.waiting t).Nodup
  awaits : ∀ t, ∀ c ∈ d.waiting t, d.Awaits c t
  due_nodup : due.Nodup
  due_apart : ∀ c ∈ due, c ∉ d.waiting b
  due_awaits : ∀ c ∈ due, d.Awaits c b
  found : ∀ c t, d.Awaits c t → c ∈ d.waiting t ∨ t = b ∧ c ∈ due
  unanswered : ∀ (c t : Nat) (result : Except Fault Answer),
    d.replies[c]? ≠ some (some ⟨t, some result, true⟩)
  drained : ∀ (t : Nat) (i : Instance), d.insts[t]? = some i → i.alive = false → i.mailbox = []

theorem answerable_empty : (⟨[], []⟩ : Desk).Answerable b [] := by
  refine ⟨?_, ?_, List.nodup_nil, nofun, nofun, ?_, ?_, ?_⟩ <;> simp [waiting, Awaits]

theorem Awaits.lt (h : d.Awaits c t) : c < d.replies.length := (List.getElem?_eq_some_iff.1 h).1

theorem waiting_of (hi : d.insts[t]? = some i) : d.waiting t = i.waiting := by
  unfold waiting
  rw [hi]
  rfl

theorem waiting_set_self (hi : d.insts[t]? = some i) : (d.set t j).waiting t = j.waiting :=
  waiting_of (List.getElem?_set_self (List.getElem?_eq_some_iff.1 hi).1)

theorem waiting_set_ne (hne : u ≠ t) : (d.set t j).waiting u = d.waiting u := by
  unfold waiting set
  rw [List.getElem?_set_ne (Ne.symm hne)]

theorem insts_set (hi : d.insts[t]? = some i) {k : Instance} (hk : (d.set t j).insts[u]? = some k) :
    u = t ∧ k = j ∨ u ≠ t ∧ d.insts[u]? = some k := by
  by_cases hu : u = t
  · subst hu
    have hself : (d.set u j).insts[u]? = some j :=
      List.getElem?_set_self (List.getElem?_eq_some_iff.1 hi).1
    exact .inl ⟨rfl, (Option.some.inj (hself.symm.trans hk)).symm⟩
  · exact .inr ⟨hu, (List.getElem?_set_ne (Ne.symm hu)).symm.trans hk⟩

/-! ## Small moves keep it -/

/-- The instance of a task becomes another one for which the same calls wait. -/
theorem Answerable.set (h : d.Answerable b due) (hi : d.insts[t]? = some i)
    (hwaiting : j.waiting = i.waiting) (hdrained : j.alive = false → j.mailbox = []) :
    (d.set t j).Answerable b due := by
  have hsame : ∀ u, (d.set t j).waiting u = d.waiting u := by
    intro u
    by_cases hu : u = t
    · subst hu
      rw [waiting_set_self hi, waiting_of hi, hwaiting]
    · exact waiting_set_ne hu
  refine ⟨?_, ?_, h.due_nodup, ?_, h.due_awaits, ?_, h.unanswered, ?_⟩
  · intro u
    rw [hsame]
    exact h.nodup u
  · intro u c hc
    rw [hsame] at hc
    exact h.awaits u c hc
  · intro c hc
    rw [hsame]
    exact h.due_apart c hc
  · intro c u hawaits
    rw [hsame]
    exact h.found c u hawaits
  · intro u k hk halive
    rcases insts_set hi hk with ⟨-, rfl⟩ | ⟨-, hk⟩
    · exact hdrained halive
    · exact h.drained u k hk halive

theorem awaits_concat {new : Option Reply} :
    ({ d with replies := d.replies ++ [new] } : Desk).Awaits c t ↔
      d.Awaits c t ∨ c = d.replies.length ∧ new = some ⟨t, none, true⟩ := by
  constructor
  · exact fun h => (concat_get? h).imp id fun ⟨hc, hnew⟩ => ⟨hc, hnew.symm⟩
  · rintro (h | ⟨rfl, rfl⟩)
    · exact (List.getElem?_append_left h.lt).trans h
    · exact List.getElem?_concat_length

/-- A call comes that nobody waits for. -/
theorem Answerable.call (h : d.Answerable b due) {new : Option Reply}
    (hnew : ∀ t result, new ≠ some ⟨t, result, true⟩) :
    ({ d with replies := d.replies ++ [new] } : Desk).Answerable b due := by
  refine ⟨h.nodup, fun t c hc => awaits_concat.2 (.inl (h.awaits t c hc)), h.due_nodup, h.due_apart,
    fun c hc => awaits_concat.2 (.inl (h.due_awaits c hc)), ?_, ?_, h.drained⟩
  · intro c t hawaits
    rcases awaits_concat.1 hawaits with hawaits | ⟨-, heq⟩
    · exact h.found c t hawaits
    · exact absurd heq (hnew t none)
  · intro c t result hreply
    rcases concat_get? hreply with hreply | ⟨-, heq⟩
    · exact h.unanswered c t result hreply
    · exact hnew t (some result) heq.symm

theorem Answerable.create (h : d.Answerable b due) (halive : i.alive = true)
    (hmailbox : i.mailbox = []) :
    ({ d with insts := d.insts ++ [i] } : Desk).Answerable b due := by
  have hnone : i.waiting = [] := by
    unfold Instance.waiting
    rw [hmailbox]
    rfl
  have hsame : ∀ u, ({ d with insts := d.insts ++ [i] } : Desk).waiting u = d.waiting u := by
    intro u
    unfold waiting
    simp only
    rw [List.getElem?_append]
    split
    · rfl
    · rename_i hle
      rw [List.getElem?_eq_none (Nat.le_of_not_lt hle)]
      cases hu : [i][u - d.insts.length]? with
      | none => rfl
      | some k =>
        obtain rfl := List.mem_singleton.1 (List.mem_of_getElem? hu)
        exact hnone
  refine ⟨?_, ?_, h.due_nodup, ?_, h.due_awaits, ?_, h.unanswered, ?_⟩
  · intro u
    rw [hsame]
    exact h.nodup u
  · intro u c hc
    rw [hsame] at hc
    exact h.awaits u c hc
  · intro c hc
    rw [hsame]
    exact h.due_apart c hc
  · intro c u hawaits
    rw [hsame]
    exact h.found c u hawaits
  · intro u k hk hstopped
    rcases concat_get? hk with hk | ⟨-, rfl⟩
    · exact h.drained u k hk hstopped
    · exact hmailbox

theorem Answerable.small (h : d.Answerable b due) (hsmall : Small d d') :
    d'.Answerable b due := by
  cases hsmall with
  | post hi hr hpost =>
    obtain ⟨-, halive, hwaiting⟩ := Instance.waiting_post hpost
    rw [hr] at hwaiting
    exact h.set hi (by simpa using hwaiting) fun hstopped => by cases halive.symm.trans hstopped
  | call => exact h.call nofun
  | refuse t => exact h.call nofun
  | create halive hmailbox => exact h.create halive hmailbox

/-! ## Asking, giving up, and answering keep it -/

theorem Awaits.task_eq (h : d.Awaits c t) (h' : d.Awaits c u) : t = u := by
  have heq := h.symm.trans h'
  simp only [Option.some.injEq, Reply.mk.injEq] at heq
  exact heq.1

theorem Answerable.ask (h : d.Answerable b []) (hi : d.insts[t]? = some i) {question : Question}
    (hpost : i.post (.query d.replies.length question false) = .ok j) :
    ({ d.set t j with replies := d.replies ++ [some ⟨t, none, true⟩] } : Desk).Answerable b [] := by
  obtain ⟨-, halive, hwaiting⟩ := Instance.waiting_post hpost
  have hwaiting : j.waiting = d.waiting t ++ [d.replies.length] := by
    rw [waiting_of hi, hwaiting]
    rfl
  have hself : (d.set t j).waiting t = d.waiting t ++ [d.replies.length] :=
    (waiting_set_self hi).trans hwaiting
  have hmem : ∀ u c, c ∈ (d.set t j).waiting u ↔
      c ∈ d.waiting u ∨ u = t ∧ c = d.replies.length := by
    intro u c
    by_cases hu : u = t
    · subst hu
      rw [hself]
      simp
    · rw [waiting_set_ne hu]
      simp [hu]
  refine ⟨?_, ?_, List.nodup_nil, nofun, nofun, ?_, ?_, ?_⟩
  · intro u
    by_cases hu : u = t
    · subst hu
      show ((d.set u j).waiting u).Nodup
      rw [hself]
      refine List.nodup_append.2 ⟨h.nodup u, List.pairwise_singleton _ _, ?_⟩
      rintro c hc _ hlast rfl
      rw [List.mem_singleton.1 hlast] at hc
      exact absurd (h.awaits u _ hc).lt (Nat.lt_irrefl _)
    · show ((d.set t j).waiting u).Nodup
      rw [waiting_set_ne hu]
      exact h.nodup u
  · intro u c hc
    rcases (hmem u c).1 hc with hc | ⟨rfl, rfl⟩
    · exact awaits_concat.2 (.inl (h.awaits u c hc))
    · exact awaits_concat.2 (.inr ⟨rfl, rfl⟩)
  · intro c u hawaits
    rcases awaits_concat.1 hawaits with hawaits | ⟨rfl, heq⟩
    · rcases h.found c u hawaits with hc | ⟨-, hc⟩
      · exact .inl ((hmem u c).2 (.inl hc))
      · cases hc
    · simp only [Option.some.injEq, Reply.mk.injEq] at heq
      exact .inl ((hmem u _).2 (.inr ⟨heq.1.symm, rfl⟩))
  · intro c u result hreply
    rcases concat_get? hreply with hreply | ⟨-, heq⟩
    · exact h.unanswered c u result hreply
    · cases heq
  · intro u k hk hstopped
    rcases insts_set hi hk with ⟨-, rfl⟩ | ⟨-, hk⟩
    · cases halive.symm.trans hstopped
    · exact h.drained u k hk hstopped

theorem replies_set {new : Option Reply} {e : Nat} {x : Option Reply}
    (hx : (d.replies.set c new)[e]? = some x) :
    (e = c ∧ x = new) ∨ (e ≠ c ∧ d.replies[e]? = some x) := by
  by_cases he : e = c
  · subst he
    rw [List.getElem?_set] at hx
    split at hx
    · split at hx
      · exact .inl ⟨rfl, (Option.some.inj hx).symm⟩
      · cases hx
    · rename_i hne
      exact absurd rfl hne
  · exact .inr ⟨he, (List.getElem?_set_ne (Ne.symm he)).symm.trans hx⟩

theorem insts_giveUp {result : Option (Except Fault Answer)} :
    (d.giveUp c t result).insts[u]? =
      if t = u then d.insts[u]?.map (·.abandon c) else d.insts[u]? := by
  unfold giveUp
  simp only
  rw [List.getElem?_modify]
  split <;> cases d.insts[u]? <;> rfl

theorem waiting_giveUp {result : Option (Except Fault Answer)} :
    (d.giveUp c t result).waiting u =
      if t = u then (d.waiting u).filter (· ≠ c) else d.waiting u := by
  unfold waiting
  rw [insts_giveUp]
  split
  · cases d.insts[u]? with
    | none => rfl
    | some i => exact i.waiting_abandon c
  · rfl

theorem Answerable.giveUp (h : d.Answerable b []) {result : Option (Except Fault Answer)}
    (hreply : d.replies[c]? = some (some ⟨t, result, true⟩)) :
    (d.giveUp c t result).Answerable b [] := by
  have hawaits : d.Awaits c t := by
    cases result with
    | none => exact hreply
    | some result => exact absurd hreply (h.unanswered c t result)
  have hmem : ∀ u e, e ∈ (d.giveUp c t result).waiting u ↔ e ∈ d.waiting u ∧ e ≠ c := by
    intro u e
    rw [waiting_giveUp]
    split
    · simp
    · rename_i hne
      refine ⟨fun he => ⟨he, ?_⟩, And.left⟩
      rintro rfl
      exact hne (hawaits.task_eq (h.awaits u e he))
  refine ⟨?_, ?_, List.nodup_nil, nofun, nofun, ?_, ?_, ?_⟩
  · intro u
    rw [waiting_giveUp]
    split
    · exact (h.nodup u).filter _
    · exact h.nodup u
  · intro u e he
    obtain ⟨he, hne⟩ := (hmem u e).1 he
    exact (List.getElem?_set_ne (Ne.symm hne)).trans (h.awaits u e he)
  · intro e u he
    rcases replies_set he with ⟨-, heq⟩ | ⟨hne, he⟩
    · cases heq
    · rcases h.found e u he with hfound | ⟨-, hfound⟩
      · exact .inl ((hmem u e).2 ⟨hfound, hne⟩)
      · cases hfound
  · intro e u answer he
    rcases replies_set he with ⟨-, heq⟩ | ⟨-, he⟩
    · cases heq
    · exact h.unanswered e u answer he
  · intro u k hk hstopped
    rw [insts_giveUp] at hk
    split at hk
    · obtain ⟨i, hi, rfl⟩ := Option.map_eq_some_iff.1 hk
      have hempty := h.drained u i hi hstopped
      unfold Instance.abandon
      rw [hempty]
      rfl
    · exact h.drained u k hk hstopped

/-- The body of a task moves on, and what it answers is due. -/
theorem Answerable.step (h : d.Answerable b []) (hi : d.insts[t]? = some i) (s : Stimulus) :
    (d.set t (i.step s).1).Answerable t ((answers (i.step s).2).map (·.1)) := by
  have hserves : i.Serves ((i.step s).1, (i.step s).2) := i.serves_step s
  have hsplit := hserves.waiting_eq
  rw [← waiting_of hi] at hsplit
  have hself := waiting_set_self (j := (i.step s).1) hi
  have hnodup := h.nodup t
  rw [hsplit, List.nodup_append] at hnodup
  obtain ⟨hdue, hrest, hapart⟩ := hnodup
  refine ⟨?_, ?_, hdue, ?_, ?_, ?_, h.unanswered, ?_⟩
  · intro u
    by_cases hu : u = t
    · subst hu
      rw [hself]
      exact hrest
    · rw [waiting_set_ne hu]
      exact h.nodup u
  · intro u c hc
    by_cases hu : u = t
    · subst hu
      rw [hself] at hc
      exact h.awaits u c (hsplit ▸ List.mem_append_right _ hc)
    · rw [waiting_set_ne hu] at hc
      exact h.awaits u c hc
  · intro c hc hin
    rw [hself] at hin
    exact hapart c hc c hin rfl
  · intro c hc
    exact h.awaits t c (hsplit ▸ List.mem_append_left _ hc)
  · intro c u hawaits
    have hc : c ∈ d.waiting u := (h.found c u hawaits).elim id fun hnone => nomatch hnone.2
    by_cases hu : u = t
    · subst hu
      rw [hself]
      rw [hsplit] at hc
      rcases List.mem_append.1 hc with hc | hc
      · exact .inr ⟨rfl, hc⟩
      · exact .inl hc
    · rw [waiting_set_ne hu]
      exact .inl hc
  · intro u k hk hstopped
    rcases insts_set hi hk with ⟨-, rfl⟩ | ⟨-, hk⟩
    · exact hserves.drained (h.drained t i hi) hstopped
    · exact h.drained u k hk hstopped

theorem resolve_eq (h : d.Awaits c t) (result : Except Fault Answer) :
    d.resolve c result = { d with replies := d.replies.set c (some ⟨t, some result, false⟩) } := by
  unfold resolve
  rw [show d.replies[c]? = _ from h]

theorem Answerable.resolve (h : d.Answerable b (c :: due)) (result : Except Fault Answer) :
    (d.resolve c result).Answerable b due := by
  have hawaits := h.due_awaits c List.mem_cons_self
  have hapart := h.due_apart c List.mem_cons_self
  obtain ⟨hfirst, hdue⟩ := List.nodup_cons.1 h.due_nodup
  have hkept : ∀ e u, e ≠ c → d.Awaits e u → (d.resolve c result).Awaits e u := by
    intro e u hne he
    rw [resolve_eq hawaits]
    exact (List.getElem?_set_ne (Ne.symm hne)).trans he
  have hset : (d.resolve c result).replies = d.replies.set c (some ⟨b, some result, false⟩) := by
    rw [resolve_eq hawaits]
  have hinsts : (d.resolve c result).insts = d.insts := by rw [resolve_eq hawaits]
  have hwaiting : ∀ u, (d.resolve c result).waiting u = d.waiting u := by
    intro u
    unfold waiting
    rw [hinsts]
  refine ⟨?_, ?_, hdue, ?_, ?_, ?_, ?_, ?_⟩
  · intro u
    rw [hwaiting]
    exact h.nodup u
  · intro u e he
    rw [hwaiting] at he
    have he' := h.awaits u e he
    refine hkept e u ?_ he'
    rintro rfl
    obtain rfl := he'.task_eq hawaits
    exact hapart he
  · intro e he
    rw [hwaiting]
    exact h.due_apart e (List.mem_cons_of_mem _ he)
  · intro e he
    refine hkept e b ?_ (h.due_awaits e (List.mem_cons_of_mem _ he))
    rintro rfl
    exact hfirst he
  · intro e u he
    rw [hwaiting]
    have he' : (d.replies.set c (some ⟨b, some result, false⟩))[e]? = some (some ⟨u, none, true⟩) :=
      hset ▸ he
    rcases replies_set he' with ⟨-, heq⟩ | ⟨hne, he'⟩
    · cases heq
    · rcases h.found e u he' with hfound | ⟨rfl, hfound⟩
      · exact .inl hfound
      · exact .inr ⟨rfl, (List.mem_cons.1 hfound).resolve_left hne⟩
  · intro e u answer he
    rw [hset] at he
    rcases replies_set he with ⟨-, heq⟩ | ⟨-, he⟩
    · cases heq
    · exact h.unanswered e u answer he
  · intro u k hk
    rw [hinsts] at hk
    exact h.drained u k hk

theorem Answerable.gives {given : List (Nat × Except Fault Answer)}
    (h : d.Answerable b (given.map (·.1))) (hgives : Gives given d d') : d'.Answerable b [] := by
  induction hgives with
  | done d => exact h
  | small hsmall _ ih => exact ih (h.small hsmall)
  | give _ ih => exact ih (h.resolve _)

theorem Answerable.smalls (h : d.Answerable b due) (hs : Smalls d d') : d'.Answerable b due := by
  induction hs with
  | refl => exact h
  | tail _ hsmall ih => exact ih.small hsmall

/-- Where nothing is due, it does not matter who would give it. -/
theorem Answerable.rebase (h : d.Answerable b []) (b' : Nat) : d.Answerable b' [] :=
  ⟨h.nodup, h.awaits, List.nodup_nil, nofun, nofun,
    fun c t hawaits => (h.found c t hawaits).imp id fun hnone => (nomatch hnone.2),
    h.unanswered, h.drained⟩

/-- Whatever is done at the desk, who waits stands in one mailbox. -/
theorem Answerable.next (h : d.Answerable b []) (hnext : Next quits d d') : d'.Answerable b [] := by
  cases hnext with
  | smalls hs => exact h.smalls hs
  | ask hi hpost => exact h.ask hi hpost
  | giveUp hquits hreply => exact h.giveUp hreply
  | feed s hi hgives => exact ((h.step hi s).gives hgives).rebase b

/-! ## What becomes of who waits -/

/-- The caller does not wait any more, and the answer, if there is one, is the given one. -/
def Settled (d : Desk) (c t : Nat) (result : Option (Except Fault Answer)) : Prop :=
  d.replies[c]? = some (some ⟨t, result, false⟩)

variable {result : Option (Except Fault Answer)}

theorem reply_concat {reply : Reply} {new : Option Reply}
    (h : d.replies[c]? = some (some reply)) :
    (d.replies ++ [new])[c]? = some (some reply) :=
  (List.getElem?_append_left (List.getElem?_eq_some_iff.1 h).1).trans h

theorem reply_small {reply : Reply} (h : d.replies[c]? = some (some reply)) (hsmall : Small d d') :
    d'.replies[c]? = some (some reply) := by
  cases hsmall with
  | post hi hr hpost => exact h
  | call => exact reply_concat h
  | refuse t => exact reply_concat h
  | create halive hmailbox => exact h

theorem reply_smalls {reply : Reply} (h : d.replies[c]? = some (some reply)) (hs : Smalls d d') :
    d'.replies[c]? = some (some reply) := by
  induction hs with
  | refl => exact h
  | tail _ hsmall ih => exact reply_small ih hsmall

theorem reply_resolve {reply : Reply} (h : d.replies[c]? = some (some reply)) {e : Nat}
    {answer : Except Fault Answer} (hother : e ≠ c ∨ reply.waits = false) :
    (d.resolve e answer).replies[c]? = some (some reply) := by
  unfold resolve
  split
  · rename_i u hreply
    rcases hother with hne | hsettled
    · exact (List.getElem?_set_ne hne).trans h
    · by_cases hne : e = c
      · subst hne
        have heq := h.symm.trans hreply
        simp only [Option.some.injEq] at heq
        rw [heq] at hsettled
        cases hsettled
      · exact (List.getElem?_set_ne hne).trans h
  · exact h

/-- A call that asks no instance. -/
def Plain (d : Desk) (c : Nat) : Prop := d.replies[c]? = some none

theorem plain_concat {new : Option Reply} (h : d.Plain c) :
    (d.replies ++ [new])[c]? = some none :=
  (List.getElem?_append_left (List.getElem?_eq_some_iff.1 h).1).trans h

theorem plain_smalls (h : d.Plain c) (hs : Smalls d d') : d'.Plain c := by
  induction hs with
  | refl => exact h
  | tail _ hsmall ih =>
    cases hsmall with
    | post hi hr hpost => exact ih
    | call => exact plain_concat ih
    | refuse t => exact plain_concat ih
    | create halive hmailbox => exact ih

theorem plain_resolve (h : d.Plain c) (e : Nat) (answer : Except Fault Answer) :
    (d.resolve e answer).Plain c := by
  unfold resolve
  split
  · rename_i u hreply
    have hne : e ≠ c := by
      rintro rfl
      cases h.symm.trans hreply
    exact (List.getElem?_set_ne hne).trans h
  · exact h

theorem Settled.gives {given : List (Nat × Except Fault Answer)} (h : d.Settled c t result)
    (hgives : Gives given d d') : d'.Settled c t result := by
  induction hgives with
  | done d => exact h
  | small hsmall _ ih => exact ih (reply_small h hsmall)
  | give _ ih => exact ih (reply_resolve h (.inr rfl))

/-- What is settled is never touched again. -/
theorem Settled.next (h : d.Settled c t result) (hnext : Next quits d d') :
    d'.Settled c t result := by
  cases hnext with
  | smalls hs => exact reply_smalls h hs
  | ask hi hpost => exact reply_concat h
  | @giveUp e u answer hquits hreply =>
    have hne : e ≠ c := by
      rintro rfl
      have heq := h.symm.trans hreply
      simp at heq
    exact (List.getElem?_set_ne hne).trans h
  | feed s hi hgives => exact Settled.gives (d := d.set _ _) h hgives

/-- An answer that is due is given, unless nobody waits for it. -/
theorem Awaits.gives {given : List (Nat × Except Fault Answer)} (h : d.Awaits c t)
    (hgives : Gives given d d') :
    d'.Awaits c t ∨ ∃ answer, (c, answer) ∈ given ∧ d'.Settled c t (some answer) := by
  induction hgives with
  | done d => exact .inl h
  | small hsmall _ ih => exact ih (reply_small h hsmall)
  | @give e answer rest d d'' hrest ih =>
    by_cases hne : e = c
    · subst hne
      have hsettled : (d.resolve e answer).Settled e t (some answer) := by
        rw [resolve_eq h]
        exact List.getElem?_set_self h.lt
      exact .inr ⟨answer, List.mem_cons_self, hsettled.gives hrest⟩
    · rcases ih (reply_resolve h (.inl hne)) with hawaits | ⟨result, hmem, hsettled⟩
      · exact .inl hawaits
      · exact .inr ⟨result, List.mem_cons_of_mem _ hmem, hsettled⟩

/-- An instance that has stopped takes no requests, and stays as it is. -/
theorem stopped_small (hi : d.insts[t]? = some i) (hstopped : i.alive = false)
    (hsmall : Small d d') : d'.insts[t]? = some i := by
  cases hsmall with
  | @post u k j r hk hr hpost =>
    obtain ⟨halive, -⟩ := Instance.waiting_post hpost
    have hne : u ≠ t := by
      rintro rfl
      obtain rfl := Option.some.inj (hi.symm.trans hk)
      cases hstopped.symm.trans halive
    exact (List.getElem?_set_ne hne).trans hi
  | call => exact hi
  | refuse u => exact hi
  | create halive hmailbox =>
    exact (List.getElem?_append_left (List.getElem?_eq_some_iff.1 hi).1).trans hi

theorem stopped_gives {given : List (Nat × Except Fault Answer)} (hi : d.insts[t]? = some i)
    (hstopped : i.alive = false) (hgives : Gives given d d') : d'.insts[t]? = some i := by
  induction hgives with
  | done d => exact hi
  | small hsmall _ ih => exact ih (stopped_small hi hstopped hsmall)
  | @give e answer rest d d'' hrest ih =>
    refine ih ?_
    have hinsts : (d.resolve e answer).insts = d.insts := by
      unfold resolve
      split <;> rfl
    rw [hinsts]
    exact hi

/-- What becomes of a call that waits: it goes on waiting, the caller gives up, its question is
answered in its turn, or the instance stops and tells so. -/
theorem Awaits.next (hawaits : d.Awaits c t) (h : d.Answerable b []) (hnext : Next quits d d') :
    d'.Awaits c t ∨ (quits c ∧ d'.Settled c t none) ∨
    ∃ i answer, d.insts[t]? = some i ∧ d'.Settled c t (some answer) ∧
      ((∃ question rest, i.phase = .idle ∧ i.mailbox = .query c question false :: rest ∧
          answer = i.answerTo question) ∨
        (answer = .error (Instance.missing i.name) ∧
          ∃ j, d'.insts[t]? = some j ∧ j.alive = false)) := by
  cases hnext with
  | smalls hs => exact .inl (reply_smalls hawaits hs)
  | ask hi hpost => exact .inl (reply_concat hawaits)
  | @giveUp e u answer hquits hreply =>
    by_cases hne : e = c
    · subst hne
      have heq := hawaits.symm.trans hreply
      simp only [Option.some.injEq, Reply.mk.injEq] at heq
      obtain ⟨rfl, rfl, -⟩ := heq
      exact .inr (.inl ⟨hquits, List.getElem?_set_self hawaits.lt⟩)
    · exact .inl ((List.getElem?_set_ne hne).trans hawaits)
  | @feed u i _ s hi hgives =>
    rcases Awaits.gives (d := d.set u (i.step s).1) hawaits hgives with
      hawaits | ⟨answer, hmem, hsettled⟩
    · exact .inl hawaits
    · have hdue := (h.step hi s).due_awaits c (List.mem_map.2 ⟨_, hmem, rfl⟩)
      obtain rfl : t = u := Awaits.task_eq (d := d.set u (i.step s).1) hawaits hdue
      have hserves : i.Serves ((i.step s).1, (i.step s).2) := i.serves_step s
      refine .inr (.inr ⟨i, answer, hi, hsettled, ?_⟩)
      rcases hserves.answer hmem with hturn | ⟨hmissing, hstopped⟩
      · exact .inl hturn
      · have hself : (d.set t (i.step s).1).insts[t]? = some (i.step s).1 :=
          List.getElem?_set_self (List.getElem?_eq_some_iff.1 hi).1
        exact .inr ⟨hmissing, _, stopped_gives hself hstopped hgives, hstopped⟩

/-- Who waits stands in the mailbox of an instance that is alive, and stands there once. -/
theorem Answerable.stands (h : d.Answerable b []) (hawaits : d.Awaits c t) :
    ∃ i, d.insts[t]? = some i ∧ i.alive = true ∧ i.waiting.count c = 1 := by
  have hmem : c ∈ d.waiting t := (h.found c t hawaits).elim id fun hnone => nomatch hnone.2
  cases hi : d.insts[t]? with
  | none => simp [waiting, hi] at hmem
  | some i =>
    rw [waiting_of hi] at hmem
    have hnodup := h.nodup t
    rw [waiting_of hi] at hnodup
    refine ⟨i, rfl, ?_, List.count_eq_one_of_mem hnodup hmem⟩
    by_contra hstopped
    have hempty := h.drained t i hi (by simpa using hstopped)
    simp [Instance.waiting, hempty] at hmem

end Desk
end Turnstile
