-- Diagrams that pass the strict check: what their tables have to be, and that their instances can be
-- sent to every state and to the end.
import Turnstile.Command.Basic
import Turnstile.Proofs.Instance.Walked
import Turnstile.Proofs.Table.Warnings

namespace Turnstile

namespace Table.Clean

variable {t : Table}

/-- In a clean table an edge is all that its event leads to. -/
theorem only (h : t.Clean) {e : Transition} (he : e ∈ t.transitions) :
    t.only? e.source (.text e.event) = some e.target := by
  refine only?_eq_some.2 ⟨e.event, rfl, mem_targets.2 he, ?_⟩
  intro y hy
  exact h.single _ _ _ _ (mem_targets.1 hy) he

/-- Along each path of a clean table there is a walk: the events of its edges. -/
theorem walk_along (h : t.Clean) {s : String}
    (hpath : Relation.ReflTransGen t.Leads t.initial s) :
    ∃ events : List String, ∀ rs : RunState, rs.current = t.initial →
      (t.walk rs (events.map .text)).2 = false ∧
        (t.walk rs (events.map .text)).1.current = s := by
  induction hpath with
  | refl => exact ⟨[], fun rs hrs => ⟨rfl, hrs⟩⟩
  | @tail u v _ hlead ih =>
    obtain ⟨events, hwalk⟩ := ih
    obtain ⟨e, he, rfl, htarget⟩ := allowed_iff.1 hlead
    refine ⟨events ++ [e.event], fun rs hrs => ?_⟩
    obtain ⟨hinside, hcurrent⟩ := hwalk rs hrs
    have honly := h.only he
    rw [htarget, ← hcurrent] at honly
    rw [List.map_append, walk_append hinside, List.map_singleton, walk_moves honly]
    exact ⟨rfl, rfl⟩

/-- A clean table can be left. -/
theorem walk_out (h : t.Clean) : ∃ events : List String, ∀ rs : RunState,
    rs.current = t.initial → (t.walk rs (events.map .text)).2 = true := by
  obtain ⟨e, he, htarget⟩ := h.ends
  have hsource : e.source ∈ t.states := mem_states.2 (.inr ⟨e, he, .inl rfl⟩)
  obtain ⟨events, hwalk⟩ := h.walk_along (h.reached _ hsource)
  refine ⟨events ++ [e.event], fun rs hrs => ?_⟩
  obtain ⟨hinside, hcurrent⟩ := hwalk rs hrs
  have honly := h.only he
  rw [htarget, ← hcurrent] at honly
  rw [List.map_append, walk_append hinside, List.map_singleton, walk_leaves honly]

end Table.Clean

/-! ## Instances -/

namespace Live

/-- Whatever else is asked of it and whenever it moves on: an instance of a table without hooks that
is sent just these events, and no request to stop, comes to rest, and then something is true of it. -/
def EndsUp (t : Table) (events : List String) (P : Instance → Prop) : Prop :=
  ∀ (typeName : String) (name payload : Value) (happenings : List Happening),
    .requestStop ∉ happenings →
    happenings.filterMap Happening.event? = events.map .text →
    let l := (create (.ofTable typeName t {}) name payload).run happenings
    (∃ n, (l.run (List.replicate n .proceed)).AtRest ∧
      P (l.run (List.replicate n .proceed)).inst) ∧
    (l.AtRest → P l.inst)

variable {t : Table} {events : List String}

/-- What is true wherever the walk ends is true of the instances. -/
theorem endsUp_of_walk {P : Instance → Prop}
    (h : ∀ i : Instance, ∀ payload,
      i.runState = (t.walk ⟨t.initial, payload, []⟩ (events.map .text)).1 →
      i.stopReason = (if (t.walk ⟨t.initial, payload, []⟩ (events.map .text)).2
        then some .terminal else none) →
      (i.stopReason = none ↔ i.alive = true) → P i) : EndsUp t events P := by
  intro typeName name payload happenings hrun hevents l
  have hends : ∀ more : List Happening, .requestStop ∉ more →
      more.filterMap Happening.event? = events.map .text →
      ((create (.ofTable typeName t {}) name payload).run more).AtRest →
      P ((create (.ofTable typeName t {}) name payload).run more).inst := by
    intro more hmore hsame hrest
    obtain ⟨hrunState, hreason⟩ := walked_at_rest hmore hrest
    rw [hsame] at hrunState hreason
    obtain ⟨moves, hmoves⟩ := run_inst (create (.ofTable typeName t {}) name payload) more
    refine h _ payload hrunState hreason ?_
    rw [hmoves]
    exact Instance.stopReason_eq_none_iff
  constructor
  · obtain ⟨n, hrest⟩ := defaults_come_to_rest typeName t name payload happenings
    refine ⟨n, hrest, ?_⟩
    rw [← run_append] at hrest ⊢
    apply hends
    · simp [hrun]
    · rw [List.filterMap_append, hevents]
      simp [Happening.event?]
    · exact hrest
  · exact hends happenings hrun hevents

end Live

/-! ## The check -/

/-- The machine of a configuration has the table of its diagram. -/
theorem table_of_build {c : Config} {catalogue : Catalogue} {m : Machine} {t : Table}
    (hbuild : c.build catalogue = .ok m) (hcompile : compileDiagram c.diagram c.dialect = .ok t) :
    m.table = t := by
  unfold Config.build at hbuild
  rw [hcompile] at hbuild
  simp only [bind, Except.bind] at hbuild
  split at hbuild
  · obtain rfl := Except.ok.inj hbuild
    rfl
  · obtain rfl := Except.ok.inj hbuild
    rfl
  · split at hbuild
    · cases hbuild
    · obtain rfl := Except.ok.inj hbuild
      rfl

/-- The strict check of a configuration that can be built ends by the warnings about its table. -/
theorem execute_check {read : Config.Reader} {catalogue : Catalogue} {path : Path}
    {c : Config} {m : Machine} (hload : Config.load read path = .ok c)
    (hbuild : c.build catalogue = .ok m) (given : Option String) :
    ((Command.check given true).execute read catalogue (some path)).ending =
      .code (if m.table.explain.warnings.isEmpty then 0 else 1) "" := by
  unfold Command.execute
  simp only [hload, hbuild, bind, Except.bind, pure, Except.pure]
  show CommandEnd.code (if true && !m.table.explain.warnings.isEmpty then 1 else 0) "" = _
  cases m.table.explain.warnings <;> rfl

/-- There are no warnings about a table exactly if some edge leaves the diagram, a path leads to every
state, an edge leaves every state and no event has two targets in one; the strict check of a
configuration with such a diagram fails exactly if there are any. If there are none, an instance
without hooks can be sent to every state, and out of the diagram. -/
theorem a_table_without_warnings_leads_everywhere (t : Table) :
    (t.explain.warnings = [] ↔ t.Clean) ∧
    (∀ (read : Config.Reader) (catalogue : Catalogue) (path : Path) (given : Option String)
      (c : Config) (m : Machine), Config.load read path = .ok c → c.build catalogue = .ok m →
      compileDiagram c.diagram c.dialect = .ok t →
      let ending := ((Command.check given true).execute read catalogue (some path)).ending
      (ending = .code 1 "" ↔ t.explain.warnings ≠ []) ∧
        (ending = .code 0 "" ↔ t.explain.warnings = [])) ∧
    (t.explain.warnings = [] →
      (∀ s ∈ t.states, ∃ events, Live.EndsUp t events fun i =>
        i.alive = true ∧ i.runState.current = s) ∧
      ∃ events, Live.EndsUp t events fun i =>
        i.alive = false ∧ i.stopReason = some .terminal) := by
  refine ⟨Table.warnings_eq_nil_iff_clean, ?_, ?_⟩
  · intro read catalogue path given c m hload hbuild hcompile ending
    have hending : ending = _ := execute_check hload hbuild given
    rw [table_of_build hbuild hcompile] at hending
    rw [hending]
    cases t.explain.warnings <;> simp
  · intro hnone
    have hclean := Table.warnings_eq_nil_iff_clean.1 hnone
    constructor
    · intro s hs
      obtain ⟨events, hwalk⟩ := hclean.walk_along (hclean.reached s hs)
      refine ⟨events, Live.endsUp_of_walk ?_⟩
      intro i payload hrunState hreason halive
      obtain ⟨hinside, hcurrent⟩ := hwalk ⟨t.initial, payload, []⟩ rfl
      rw [hinside] at hreason
      rw [hrunState]
      exact ⟨halive.1 hreason, hcurrent⟩
    · obtain ⟨events, hwalk⟩ := hclean.walk_out
      refine ⟨events, Live.endsUp_of_walk ?_⟩
      intro i payload _ hreason halive
      rw [hwalk ⟨t.initial, payload, []⟩ rfl] at hreason
      refine ⟨?_, hreason⟩
      rw [← Bool.not_eq_true, ← halive, hreason]
      nofun

/-- A diagram of two states passes the check, and its instances can be sent to the second one and out. -/
theorem a_small_diagram_passes_the_check :
    let t : Table := ⟨"a", [⟨"a", "go", .state "b"⟩, ⟨"b", "end", .terminal⟩], ["start"]⟩
    let read : Config.Reader := fun _ => .ok
      "'name': 'm'\n'diagram': |\n  [*] --> a : start\n  a --> b : go\n  b --> [*] : end\n"
    t.explain.warnings = [] ∧
    ((Command.check none true).execute read [] (some (.ofText "c.yaml"))).ending =
      .code 0 "" ∧
    (∃ events, Live.EndsUp t events fun i => i.alive = true ∧ i.runState.current = "b") ∧
    ∃ events, Live.EndsUp t events fun i => i.alive = false ∧ i.stopReason = some .terminal := by
  intro t read
  obtain ⟨hclean, hcheck, hleads⟩ := a_table_without_warnings_leads_everywhere t
  have hnone : t.explain.warnings = [] := by
    refine hclean.2 ⟨⟨_, List.mem_cons_of_mem _ (List.mem_singleton_self _), rfl⟩, ?_, ?_, ?_⟩
    · intro s hs
      have hstates : t.states = ["a", "b"] := by decide
      have hgo : t.allowed "a" (.state "b") = true := by decide
      rw [hstates, List.mem_cons, List.mem_singleton] at hs
      rcases hs with rfl | rfl
      · exact .refl
      · exact .single hgo
    · decide
    · intro s e x y hx hy
      simp [t] at hx hy
      grind
  have hload : ((Config.load read (.ofText "c.yaml")).toOption.map
      fun c => (c.diagram, c.dialect, c.hooks)) = some
        ("[*] --> a : start\na --> b : go\nb --> [*] : end\n", "plantuml", none) := by
    decide +kernel
  have hcompile : compileDiagram "[*] --> a : start\na --> b : go\nb --> [*] : end\n" "plantuml" =
      .ok t := by decide +kernel
  refine ⟨hnone, ?_, (hleads hnone).1 "b" (by decide), (hleads hnone).2⟩
  cases hc : Config.load read (.ofText "c.yaml") with
  | error fault =>
    rw [hc] at hload
    cases hload
  | ok c =>
    rw [hc] at hload
    obtain ⟨hdiagram, hdialect, hhooks⟩ : c.diagram = _ ∧ c.dialect = _ ∧ c.hooks = _ := by
      simpa [Except.toOption] using hload
    rw [← hdiagram, ← hdialect] at hcompile
    have hbuild : c.build [] = .ok (.ofTable c.name t {}) := by
      unfold Config.build
      rw [hhooks, hcompile]
      rfl
    exact (hcheck read [] _ none c _ hc hbuild hcompile).2.2 hnone

end Turnstile
