-- How the search of a table goes: it looks at each state once that it comes to, and then it is over.
-- What it has found by then is the least set that edges to states do not lead out of.
import Mathlib.Data.List.Nodup
import Mathlib.Logic.Function.Iterate
import Mathlib.Order.Bounds.Basic
import Turnstile.Proofs.Table.Queries

namespace Turnstile.Table

variable {t : Table}

/-! ## Turns -/

/-- One turn of the search: the state that comes first is looked at, and what edges lead to from it
comes before the others, unless it was seen before. -/
def turn (t : Table) : List String × List String → List String × List String
  | (seen, []) => (seen, [])
  | (seen, s :: frontier) => (seen ++ t.fresh seen s, t.fresh seen s ++ frontier)

/-- A search that has come so far takes some more turns, and has then found all that it finds. -/
structure Takes (t : Table) (begun : List String × List String) (n : Nat) (found : List String) :
    Prop where
  ends : t.turn^[n] begun = (found, [])
  goesOn : ∀ m < n, (t.turn^[m] begun).2 ≠ []

theorem Takes.after_turn {seen frontier found : List String} {s : String} {n : Nat}
    (h : t.Takes (t.turn (seen, s :: frontier)) n found) :
    t.Takes (seen, s :: frontier) (n + 1) found where
  ends := h.ends
  goesOn m hm := by
    cases m with
    | zero => exact List.cons_ne_nil _ _
    | succ m => exact h.goesOn m (Nat.lt_of_succ_lt_succ hm)

/-- A search looks once at each state of its frontier and at each state that it finds. -/
theorem search_takes (seen frontier : List String) :
    ∃ n, n + seen.length = frontier.length + (t.search seen frontier).length ∧
      t.Takes (seen, frontier) n (t.search seen frontier) := by
  fun_induction t.search seen frontier with
  | case1 seen => exact ⟨0, rfl, rfl, by simp⟩
  | case2 seen s frontier hfresh ih =>
    obtain ⟨n, hn, htakes⟩ := ih
    have hturn : t.turn (seen, s :: frontier) = (seen, frontier) := by simp [turn, hfresh]
    rw [← hturn] at htakes
    exact ⟨n + 1, by rw [List.length_cons]; omega, htakes.after_turn⟩
  | case3 seen s frontier hfresh ih =>
    obtain ⟨n, hn, htakes⟩ := ih
    rw [List.length_append, List.length_append] at hn
    exact ⟨n + 1, by rw [List.length_cons]; omega, htakes.after_turn⟩

/-- The search takes as many turns as it finds states. -/
theorem reachable_takes (t : Table) :
    t.Takes ([t.initial], [t.initial]) t.reachable.length t.reachable := by
  obtain ⟨n, hn, htakes⟩ := t.search_takes [t.initial] [t.initial]
  obtain rfl : n = t.reachable.length := by
    unfold reachable
    simp only [List.length_singleton] at hn
    omega
  exact htakes

/-! ## What is found -/

/-- A search sees each state once. -/
theorem search_nodup (seen frontier : List String) (hseen : seen.Nodup) :
    (t.search seen frontier).Nodup := by
  fun_induction t.search seen frontier with
  | case1 seen => exact hseen
  | case2 seen s frontier hfresh ih => exact ih hseen
  | case3 seen s frontier hfresh ih =>
    refine ih (hseen.append (distinct_nodup _) ?_)
    exact fun x hx hnew => (mem_fresh.1 hnew).2 hx

theorem reachable_nodup (t : Table) : t.reachable.Nodup :=
  search_nodup _ _ (List.nodup_singleton _)

theorem leads_iff {u v : String} : t.Leads u v ↔ ∃ e ∈ t.transitions, e.source = u ∧ e.target = .state v :=
  allowed_iff

theorem reachable_subset_states (t : Table) : t.reachable ⊆ t.states := by
  intro s hs
  rcases Relation.ReflTransGen.cases_tail (mem_reachable_iff.1 hs) with hinitial | ⟨u, -, hlead⟩
  · exact mem_states.2 (.inl hinitial)
  · obtain ⟨e, he, -, htarget⟩ := leads_iff.1 hlead
    exact mem_states.2 (.inr ⟨e, he, .inr htarget⟩)

/-- No more turns than there are states. -/
theorem length_reachable_le (t : Table) : t.reachable.length ≤ t.states.length :=
  ((reachable_nodup t).subperm (reachable_subset_states t)).length_le

/-! ## Paths and closed sets -/

/-- Edges to states, each of which leaves the state that the one before it leads to. -/
inductive Route (t : Table) : String → List Transition → String → Prop where
  | here (s : String) : Route t s [] s
  | along {e : Transition} {u v : String} {es : List Transition} (he : e ∈ t.transitions)
    (htarget : e.target = .state u) (hrest : Route t u es v) : Route t e.source (e :: es) v

/-- A set of states that holds the initial one, and the state that an edge leads to with the one
that it leaves. -/
structure IsClosed (t : Table) (S : Set String) : Prop where
  initial : t.initial ∈ S
  edges : ∀ e ∈ t.transitions, ∀ s, e.target = .state s → e.source ∈ S → s ∈ S

theorem route_iff {u v : String} :
    (∃ es, t.Route u es v) ↔ Relation.ReflTransGen t.Leads u v := by
  constructor
  · rintro ⟨es, hroute⟩
    induction hroute with
    | here s => exact .refl
    | along he htarget _ ih => exact .head (leads_iff.2 ⟨_, he, rfl, htarget⟩) ih
  · intro hpath
    induction hpath using Relation.ReflTransGen.head_induction_on with
    | refl => exact ⟨[], .here v⟩
    | head hlead _ ih =>
      obtain ⟨es, hroute⟩ := ih
      obtain ⟨e, he, rfl, htarget⟩ := leads_iff.1 hlead
      exact ⟨e :: es, .along he htarget hroute⟩

theorem Route.mem_closed {S : Set String} (hclosed : t.IsClosed S) {u v : String}
    {es : List Transition} (hroute : t.Route u es v) (hu : u ∈ S) : v ∈ S := by
  induction hroute with
  | here s => exact hu
  | along he htarget _ ih => exact ih (hclosed.edges _ he _ htarget hu)

theorem reachable_closed (t : Table) : t.IsClosed {s | s ∈ t.reachable} where
  initial := initial_mem_reachable t
  edges e he _ htarget hsource :=
    Leads.mem_reachable (leads_iff.2 ⟨e, he, rfl, htarget⟩) hsource

/-! ## The law -/

/-- The search of a table ends: it takes one turn for each state that it finds, and there are no more
of them than states. It finds the least set of states that holds the initial one and that no edge to
a state leads out of, which are the ends of the paths from the initial state. The way out of the
diagram is not among them. -/
theorem the_search_finds_the_ends_of_all_paths (t : Table) :
    t.Takes ([t.initial], [t.initial]) t.reachable.length t.reachable ∧
    t.reachable.length ≤ t.states.length ∧
    IsLeast {S : Set String | t.IsClosed S} {s | s ∈ t.reachable} ∧
    (∀ s, s ∈ t.reachable ↔ ∃ es, t.Route t.initial es s) ∧
    t.reachable.Nodup ∧ t.reachable ⊆ t.states ∧ .terminal ∉ t.reachable.map Target.state := by
  have hroutes : ∀ s, s ∈ t.reachable ↔ ∃ es, t.Route t.initial es s := fun s =>
    mem_reachable_iff.trans route_iff.symm
  refine ⟨reachable_takes t, length_reachable_le t, ⟨reachable_closed t, ?_⟩, hroutes,
    reachable_nodup t, reachable_subset_states t, by simp⟩
  intro S hS s hs
  obtain ⟨es, hroute⟩ := (hroutes s).1 hs
  exact hroute.mem_closed hS hS.initial

/-- A cycle, a loop, an edge twice, and an edge out of a state that nothing leads to. -/
example :
    let t : Table := ⟨"a", [⟨"a", "go", .state "b"⟩, ⟨"b", "go", .state "a"⟩, ⟨"b", "on", .state "b"⟩,
      ⟨"a", "go", .state "b"⟩, ⟨"b", "end", .terminal⟩, ⟨"d", "back", .state "a"⟩], []⟩
    t.turn^[2] ([t.initial], [t.initial]) = (["a", "b"], []) := by
  decide

end Turnstile.Table
