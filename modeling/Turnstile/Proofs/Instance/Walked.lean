-- An instance without hooks of its own walks along its table: an event with a single target takes it
-- there, and any other leaves it where it is.
import Turnstile.Proofs.Instance.AtRest
import Turnstile.Proofs.Supervisor.Shown
import Turnstile.Proofs.Table.Follow

namespace Turnstile

open Serial

/-! ## Walks -/

namespace Table

/-- Where a table takes a run state on some events, and whether it leaves the diagram there. -/
def walk (t : Table) (rs : RunState) : List Value → RunState × Bool
  | [] => (rs, false)
  | event :: events =>
    match t.only? rs.current event with
    | some (.state s) => t.walk (rs.move s rs.payload) events
    | some .terminal => (rs, true)
    | none => t.walk rs events

section
variable {t : Table} {rs : RunState} {event : Value}

theorem walk_moves {s : String} (h : t.only? rs.current event = some (.state s))
    (events : List Value) : t.walk rs (event :: events) = t.walk (rs.move s rs.payload) events := by
  rw [walk, h]

theorem walk_leaves (h : t.only? rs.current event = some .terminal) (events : List Value) :
    t.walk rs (event :: events) = (rs, true) := by
  rw [walk, h]

theorem walk_stays (h : t.only? rs.current event = none) (events : List Value) :
    t.walk rs (event :: events) = t.walk rs events := by
  rw [walk, h]

/-- A walk that has not left the diagram goes on from where it is. -/
theorem walk_append {events : List Value} (h : (t.walk rs events).2 = false) (more : List Value) :
    t.walk rs (events ++ more) = t.walk (t.walk rs events).1 more := by
  induction events generalizing rs with
  | nil => rfl
  | cons event events ih =>
    rw [List.cons_append]
    cases honly : t.only? rs.current event with
    | none =>
      rw [walk_stays honly] at h ⊢
      rw [walk_stays honly]
      exact ih h
    | some x =>
      cases x with
      | terminal =>
        rw [walk_leaves honly] at h
        cases h
      | state s =>
        rw [walk_moves honly] at h ⊢
        rw [walk_moves honly]
        exact ih h

/-- A walk that has left the diagram is over. -/
theorem walk_left {events : List Value} (h : (t.walk rs events).2 = true) (more : List Value) :
    t.walk rs (events ++ more) = t.walk rs events := by
  induction events generalizing rs with
  | nil => cases h
  | cons event events ih =>
    rw [List.cons_append]
    cases honly : t.only? rs.current event with
    | none =>
      rw [walk_stays honly] at h
      rw [walk_stays honly, walk_stays honly]
      exact ih h
    | some x =>
      cases x with
      | terminal => rw [walk_leaves honly, walk_leaves honly]
      | state s =>
        rw [walk_moves honly] at h
        rw [walk_moves honly, walk_moves honly]
        exact ih h

end

end Table

/-! ## Instances without hooks -/

/-- The event that a request is for, if it is for one. -/
def Request.event? : Request → Option Value
  | .transition event _ => some event
  | .query .. | .stop => none

/-- The event that a caller sends, if one does. -/
def Happening.event? : Happening → Option Value
  | .send event _ => some event
  | .query .. | .requestStop | .giveUp _ | .proceed => none

theorem events_sent (happenings : List Happening) :
    (sent happenings).filterMap Request.event? = happenings.filterMap Happening.event? := by
  unfold sent
  rw [List.filterMap_filterMap]
  congr 1
  funext happening
  cases happening <;> rfl

theorem stop_not_mem_sent {happenings : List Happening} (h : .requestStop ∉ happenings) :
    .stop ∉ sent happenings := by
  intro hstop
  obtain ⟨happening, hmem, hrequest⟩ := List.mem_filterMap.1 hstop
  cases happening with
  | requestStop => exact h hmem
  | _ => cases hrequest

namespace Serial

variable {t : Table} (typeName : String) (name : Value) {rs : RunState} (past : HookPast)
  {event : Value} (payload : Value)

/-- What comes of a request, by the answer of the table's own hook. -/
theorem serve_default (t : Table) (rs : RunState) (event : Value) :
    ∃ past', serve (.ofTable typeName t {}) name rs past (.transition event payload) =
      (carryOut (.ofTable typeName t {}) name rs past' event payload (ruling t rs.current event
        (t.follow (.text rs.current) event rs.payload))).after
          [.called (.transition ⟨rs.current, event, payload, rs.payload⟩)] := ⟨_, rfl⟩

theorem serve_moves {s : String} (h : t.only? rs.current event = some (.state s)) :
    (serve (.ofTable typeName t {}) name rs past (.transition event payload)).runState =
        rs.move s rs.payload ∧
      (serve (.ofTable typeName t {}) name rs past (.transition event payload)).stop = none := by
  obtain ⟨past', hserve⟩ := serve_default typeName name past payload t rs event
  have hruling : ruling t rs.current event (.ok (.success (.text s) rs.payload)) =
      .moves s rs.payload := by
    simp [ruling, Table.allowedValue, Target.ofValue?, Table.allowed_of_only h]
  rw [hserve, Table.follow_only h, show (Target.state s).toValue = .text s from rfl, hruling]
  exact ⟨rfl, rfl⟩

theorem serve_leaves (h : t.only? rs.current event = some .terminal) :
    (serve (.ofTable typeName t {}) name rs past (.transition event payload)).runState = rs ∧
      (serve (.ofTable typeName t {}) name rs past (.transition event payload)).stop =
        some .terminal := by
  obtain ⟨past', hserve⟩ := serve_default typeName name past payload t rs event
  have hruling : ruling t rs.current event (.ok (.success .terminal rs.payload)) = .leaves := by
    simp [ruling, Table.allowedValue, Target.ofValue?, Table.allowed_of_only h]
  rw [hserve, Table.follow_only h, show Target.terminal.toValue = .terminal from rfl, hruling]
  exact ⟨rfl, rfl⟩

theorem serve_stays (h : t.only? rs.current event = none) :
    (serve (.ofTable typeName t {}) name rs past (.transition event payload)).runState = rs ∧
      (serve (.ofTable typeName t {}) name rs past (.transition event payload)).stop = none := by
  obtain ⟨past', hserve⟩ := serve_default typeName name past payload t rs event
  rw [hserve]
  rcases Table.follow_none h rs.payload with ⟨reason, hfollow⟩ | hfollow
  · rw [hfollow]
    exact ⟨rfl, rfl⟩
  · rw [hfollow]
    exact ⟨rfl, rfl⟩

/-- The interpreter of an instance without hooks walks along the table. -/
theorem serveAll_walks (rs : RunState) (t : Table) {requests : List Request}
    (h : .stop ∉ requests) :
    (serveAll (.ofTable typeName t {}) name rs past requests).runState =
        (t.walk rs (requests.filterMap Request.event?)).1 ∧
      (serveAll (.ofTable typeName t {}) name rs past requests).stop =
        if (t.walk rs (requests.filterMap Request.event?)).2 then some .terminal else none := by
  induction requests generalizing rs past with
  | nil => exact ⟨rfl, rfl⟩
  | cons r requests ih =>
    obtain ⟨hr, hrest⟩ : .stop ≠ r ∧ .stop ∉ requests := by simpa using h
    -- a request that does not stop the instance
    have hgoOn : ∀ {rs'}, (serve (.ofTable typeName t {}) name rs past r).runState = rs' ∧
        (serve (.ofTable typeName t {}) name rs past r).stop = none →
        (serveAll (.ofTable typeName t {}) name rs past (r :: requests)).runState =
            (t.walk rs' (requests.filterMap Request.event?)).1 ∧
          (serveAll (.ofTable typeName t {}) name rs past (r :: requests)).stop =
            if (t.walk rs' (requests.filterMap Request.event?)).2 then some .terminal
            else none := by
      rintro rs' ⟨rfl, hstop⟩
      rw [serveAll_cons]
      unfold Turn.goOn
      rw [hstop]
      exact ih _ _ hrest
    cases r with
    | stop => exact absurd rfl hr
    | query call question abandoned => exact hgoOn ⟨rfl, rfl⟩
    | transition event payload =>
      have hevents : (Request.transition event payload :: requests).filterMap Request.event? =
          event :: requests.filterMap Request.event? := rfl
      rw [hevents]
      cases honly : t.only? rs.current event with
      | none =>
        rw [Table.walk_stays honly]
        exact hgoOn (serve_stays typeName name past payload honly)
      | some x =>
        cases x with
        | state s =>
          rw [Table.walk_moves honly]
          exact hgoOn (serve_moves typeName name past payload honly)
        | terminal =>
          obtain ⟨hrunState, hstop⟩ := serve_leaves typeName name past payload honly
          rw [Table.walk_leaves honly, serveAll_cons]
          unfold Turn.goOn
          rw [hstop]
          exact ⟨hrunState, rfl⟩

end Serial

namespace Live

variable {typeName : String} {t : Table} {name payload : Value} {happenings : List Happening}

theorem defaults_neverCancel (typeName : String) (t : Table) :
    (Machine.ofTable typeName t {}).hooks.NeverCancel :=
  (defaults_selfContained t .null).neverCancel

/-- At rest an instance without hooks is where the walk ends that the events sent to it make, and
has stopped exactly if the walk has left the diagram. -/
theorem walked_at_rest (hrun : .requestStop ∉ happenings)
    (hrest : ((create (.ofTable typeName t {}) name payload).run happenings).AtRest) :
    ((create (.ofTable typeName t {}) name payload).run happenings).inst.runState =
        (t.walk ⟨t.initial, payload, []⟩ (happenings.filterMap Happening.event?)).1 ∧
      ((create (.ofTable typeName t {}) name payload).run happenings).inst.stopReason =
        if (t.walk ⟨t.initial, payload, []⟩ (happenings.filterMap Happening.event?)).2
        then some .terminal else none := by
  obtain ⟨hrunState, hstop⟩ :=
    at_rest_as_interpreted name payload (defaults_neverCancel typeName t) happenings hrest
  have hwalks := serveAll_walks typeName name [] ⟨t.initial, payload, []⟩ t
    (stop_not_mem_sent hrun)
  rw [events_sent] at hwalks
  exact ⟨hrunState.trans hwalks.1, hstop.trans hwalks.2⟩

/-- An instance without hooks comes to rest once it is left alone. -/
theorem defaults_come_to_rest (typeName : String) (t : Table) (name payload : Value)
    (happenings : List Happening) :
    ∃ n, (((create (.ofTable typeName t {}) name payload).run happenings).run
      (List.replicate n .proceed)).AtRest := by
  have hhooks := defaults_neverCancel typeName t
  have hsound := sound_run (sound_create (.ofTable typeName t {}) name payload) hhooks happenings
  obtain ⟨n, hrest, -, -⟩ := comes_to_rest hsound hhooks
  exact ⟨n, hrest⟩

end Live
end Turnstile
