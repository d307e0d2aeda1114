-- Who is told of what: a call that waits for the end of a task, or stops it, returns only when the
-- task has ended, unless it is called off. A window is closed once at most.
import Turnstile.Proofs.Supervisor.Office

namespace Turnstile

/-- What may become of a sign: what has ended stays so. -/
structure Sign.Becomes (s s' : Sign) : Prop where
  supervised : s'.supervised = s.supervised
  ended : s.run = .ended → s'.run = .ended
  outside : s'.outside = true → s.outside = true

theorem Sign.Becomes.refl (s : Sign) : s.Becomes s := ⟨rfl, id, id⟩

/-- What may become of a call: it goes on with the task that it is about, and what it returns is
final. -/
structure Call.Becomes (call call' : Call) : Prop where
  parent : call'.parent = call.parent
  target : call'.target? = call.target?
  watches : ∀ t, call.watches? = some t → call'.watches? = some t
  children : ∀ children, (∃ left, call'.stage = .join children left) ↔
    ∃ left, call.stage = .join children left
  done : ∀ result, call.run = .done result → call' = call

theorem Call.Becomes.refl (call : Call) : call.Becomes call :=
  ⟨rfl, rfl, fun _ => id, fun _ => .rfl, fun _ _ => rfl⟩

/-- A call runs on at its stage. -/
theorem Call.Becomes.rerun {call : Call} (hrun : ∀ result, call.run ≠ .done result)
    (run : CallRun) : call.Becomes { call with run := run } :=
  ⟨rfl, rfl, fun _ => id, fun _ => .rfl, fun result h => absurd h (hrun result)⟩

/-- The call has returned, and no fault, or it waited for the end of a task and waits no longer. -/
def Call.IsOver (call : Call) : Prop :=
  (∃ a, call.run = .done (.ok a)) ∨
    call.run = .queued false ∧ ∃ t, call.stage = .exit t ∨ call.stage = .forced t

def Job.close? : Job → Option Nat
  | .close c => some c
  | _ => none

namespace Office

variable {o o' : Office} {t u c d : Nat} {s : Sign} {call : Call} {j : Job}

theorem set_cases {α : Type} {l : List α} {x y : α} (h : (l.set c x)[d]? = some y) :
    d = c ∧ y = x ∨ d ≠ c ∧ l[d]? = some y := by
  by_cases hd : d = c
  · subst hd
    have hlt : d < l.length := by
      have hlt := (List.getElem?_eq_some_iff.1 h).1
      simpa using hlt
    rw [List.getElem?_set_self hlt] at h
    exact .inl ⟨rfl, (Option.some.inj h).symm⟩
  · exact .inr ⟨hd, (List.getElem?_set_ne (Ne.symm hd)).symm.trans h⟩

theorem append_cases {α : Type} {l m : List α} {y : α} (h : (l ++ m)[d]? = some y) :
    l[d]? = some y ∨ l.length ≤ d ∧ y ∈ m := by
  rw [List.getElem?_append] at h
  split at h
  · exact .inl h
  · exact .inr ⟨by omega, List.mem_of_getElem? h⟩

/-! ## What becomes of tasks and calls -/

/-- A call comes: one by itself, or a shutdown with the calls that it makes. -/
inductive Arrives (o : Office) : Call → Prop where
  | comes {call : Call} (hcomes : o.Comes call) : Arrives o call
  | join (children : List Nat) (left : Nat) :
    Arrives o ⟨none, .join children left, .waiting false⟩
  | guard {t : Nat} {s : Sign} (hs : o.signs[t]? = some s) (hsupervised : s.supervised = true)
    (timeout : Number) : Arrives o (guard o.calls.length timeout t)

theorem Move.grow (hmove : o.Move o') :
    o.signs.length ≤ o'.signs.length ∧ o.calls.length ≤ o'.calls.length := by
  cases hmove <;> simp [setSign, setCall, Office.push]

/-- What a move does to one task. -/
inductive Alters (o o' : Office) (t : Nat) (s : Sign) : Sign → Prop where
  | change {s' : Sign} (hrun : s'.run = s.run) (hsupervised : s'.supervised = s.supervised)
    (hwatchers : s'.watchers = s.watchers) (houtside : s'.outside = true → s.outside = true)
    (hhungry : s.run = .receiving → s.hungry = true → s'.hungry = true)
    (hsame : o'.running = o.running) : Alters o o' t s s'
  | halt {run : TaskRun} (hgoing : s.run ≠ .ended) (hinside : s.outside = false)
    (hrun : run = .receiving ∧ s.hungry = true ∨ ∃ serial, run = .paused serial) :
    Alters o o' t s { s with run := run }
  | yield (hgoing : s.run ≠ .ended) (hinside : s.outside = false) :
    Alters o o' t s { s with run := .queued false }
  | wake (hrun : s.run = .receiving ∨ s.run = .absent ∨ ∃ serial, s.run = .paused serial)
    (cancelled hungry : Bool) :
    Alters o o' t s { s with run := .queued cancelled, hungry := hungry }
  | cancelQueued {cancelled : Bool} (hrun : s.run = .queued cancelled)
    (hqueue : o'.queue = o.queue) : Alters o o' t s { s with run := .queued true }
  | resume {cancelled : Bool} (hrun : s.run = .queued cancelled) (hmine : o'.running = some t) :
    Alters o o' t s { s with run := .active }
  | finish : Alters o o' t s { s with run := .ended, watchers := [] }
  | watch {c : Nat} {call : Call} (hcall : o.calls[c]? = some call)
    (hwatches : call.watches? = some t) (hsame : o'.running = o.running) :
    Alters o o' t s { s with watchers := s.watchers ++ [c] }
  | unwatch (c : Nat) (hsame : o'.running = o.running) :
    Alters o o' t s { s with watchers := s.watchers.filter (· ≠ c) }

/-- What a move does to one call. -/
inductive Goes (o o' : Office) (c : Nat) (call : Call) : Call → Prop where
  | openWindow {t : Nat} {timeout : Number} (hstage : call.stage = .closing t timeout)
    (hrun : (∃ cancelled, call.run = .waiting cancelled) ∨
      call.run = .queued false ∧ o.queue = .proceed c :: o'.queue) :
    Goes o o' c call { call with stage := .window t timeout, run := .waiting false }
  | release {cancelled : Bool} {rest : List Job} (hrun : call.run = .waiting cancelled)
    (hrunning : o.running = none)
    (hqueue : o.queue = .taskEnded c :: rest ∨ o.queue = .close c :: rest)
    (hqueue' : o'.queue = rest ++ [.proceed c]) (htimers : o'.timers = o.timers) :
    Goes o o' c call { call with run := .queued cancelled }
  | settle {cancelled : Bool} {rest : List Job} {result : Except Fault CallAnswer}
    (hrun : call.run = .queued cancelled) (hqueue : o.queue = .proceed c :: rest)
    (hqueue' : o'.queue = rest ++ report call result)
    (hok : ∀ a, result = .ok a → cancelled = false ∧ o.Settles call.stage) :
    Goes o o' c call { call with run := .done result }
  | force {t : Nat} {timeout : Number} (hstage : call.stage = .window t timeout)
    (hrun : call.run = .queued false) (hqueue : o.queue = .proceed c :: o'.queue)
    (hgoing : ¬o.Ended t) :
    Goes o o' c call { call with stage := .forced t, run := .waiting false }
  | join {children : List Nat} {left : Nat} {requested : Bool}
    (hstage : call.stage = .join children left) (hrun : call.run = .waiting requested) :
    Goes o o' c call
      { call with stage := .join children (left - 1), run := .waiting requested }
  | joinLast {children : List Nat} {left : Nat} {requested : Bool}
    (hstage : call.stage = .join children left) (hrun : call.run = .waiting requested)
    (cancelled : Bool) : Goes o o' c call
      { call with stage := .join children (left - 1), run := .queued (requested || cancelled) }
  | callOff {cancelled : Bool}
    (hrun : call.run = .waiting cancelled ∨ call.run = .queued cancelled) :
    Goes o o' c call { call with run := .queued true }
  | callOffLater {cancelled : Bool} (hrun : call.run = .waiting cancelled) :
    Goes o o' c call { call with run := .waiting true }
  | reply {t : Nat} {cancelled : Bool} (hstage : call.stage = .reply t none)
    (hrun : call.run = .waiting cancelled) (result : Except Fault Answer) :
    Goes o o' c call { call with stage := .reply t (some result), run := .queued cancelled }

/-- A task is as it was, and runs if it ran; or it has just come; or the move altered it. -/
theorem Move.sign_cases (hmove : o.Move o') {s' : Sign} (hs' : o'.signs[t]? = some s') :
    (o.signs[t]? = some s' ∧ (o.running = some t → o'.running = some t)) ∨
    (t = o.signs.length ∧ (s' = Sign.new .absent false ∨
      s' = Sign.new (.queued false) true ∧ .resume t ∈ o'.queue)) ∨
    ∃ s, o.signs[t]? = some s ∧ o.Alters o' t s s' := by
  have hset : ∀ {u : Nat} {s s₁ : Sign}, o.signs[u]? = some s →
      (o.signs.set u s₁)[t]? = some s' → o.Alters o' u s s₁ →
      (t ≠ u → o.running = some t → o'.running = some t) →
      (o.signs[t]? = some s' ∧ (o.running = some t → o'.running = some t)) ∨
      (t = o.signs.length ∧ (s' = Sign.new .absent false ∨
        s' = Sign.new (.queued false) true ∧ .resume t ∈ o'.queue)) ∨
      ∃ s, o.signs[t]? = some s ∧ o.Alters o' t s s' := by
    intro u s s₁ hs hs' halters hother
    rcases set_cases hs' with ⟨rfl, rfl⟩ | ⟨hne, hs'⟩
    · exact .inr (.inr ⟨s, hs, halters⟩)
    · exact .inl ⟨hs', hother hne⟩
  have hnew : ∀ {s₁ : Sign}, (o.signs ++ [s₁])[t]? = some s' →
      o.signs[t]? = some s' ∨ t = o.signs.length ∧ s' = s₁ := by
    intro s₁ h
    have hlt := (List.getElem?_eq_some_iff.1 h).1
    rw [List.length_append, List.length_singleton] at hlt
    rcases append_cases h with h | ⟨hle, hmem⟩
    · exact .inl h
    · exact .inr ⟨by omega, List.mem_singleton.1 hmem⟩
  cases hmove with
  | change hs hrun hsupervised hwatchers houtside hhungry =>
    exact hset hs hs' (.change hrun hsupervised hwatchers houtside hhungry rfl) fun _ => id
  | halt hs hgoing hinside hmine hrun =>
    exact hset hs hs' (.halt hgoing hinside hrun) fun hne h => absurd (hmine t h) hne
  | yield hs hgoing hinside hmine =>
    exact hset hs hs' (.yield hgoing hinside) fun hne h => absurd (hmine t h) hne
  | wake hs hrun cancelled hungry => exact hset hs hs' (.wake hrun cancelled hungry) fun _ => id
  | cancelQueued hs hrun => exact hset hs hs' (.cancelQueued hrun rfl) fun _ => id
  | resume hs hrun hrunning hqueue =>
    exact hset hs hs' (.resume hrun rfl) fun _ h => by cases hrunning.symm.trans h
  | finish hs hrun hrunning =>
    refine hset hs hs' .finish fun hne h => ?_
    exact absurd (Option.some.inj (h.symm.trans hrunning)) hne
  | watch hcall hwatches hs hgoing => exact hset hs hs' (.watch hcall hwatches rfl) fun _ => id
  | unwatch hs c => exact hset hs hs' (.unwatch c rfl) fun _ => id
  | create =>
    rcases hnew hs' with hold | ⟨ht, rfl⟩
    · exact .inl ⟨hold, id⟩
    · exact .inr (.inl ⟨ht, .inl rfl⟩)
  | spawn =>
    rcases hnew hs' with hold | ⟨rfl, rfl⟩
    · exact .inl ⟨hold, id⟩
    · exact .inr (.inl ⟨rfl, .inr ⟨rfl, List.mem_append_right _ List.mem_cons_self⟩⟩)
  | _ => exact .inl ⟨hs', id⟩

/-- A call is as it was, or has just come, or goes on. -/
theorem Move.call_cases (hmove : o.Move o') {call' : Call} (hcall' : o'.calls[c]? = some call') :
    o.calls[c]? = some call' ∨ (o.calls.length ≤ c ∧ o.Arrives call') ∨
      ∃ call, o.calls[c]? = some call ∧ o.Goes o' c call call' := by
  have hset : ∀ {d : Nat} {call call₁ : Call}, o.calls[d]? = some call →
      (o.calls.set d call₁)[c]? = some call' → o.Goes o' d call call₁ →
      o.calls[c]? = some call' ∨ (o.calls.length ≤ c ∧ o.Arrives call') ∨
        ∃ call, o.calls[c]? = some call ∧ o.Goes o' c call call' := by
    intro d call call₁ hcall hcall' hgoes
    rcases set_cases hcall' with ⟨rfl, rfl⟩ | ⟨-, hcall'⟩
    · exact .inr (.inr ⟨call, hcall, hgoes⟩)
    · exact .inl hcall'
  cases hmove with
  | call hcomes =>
    rcases append_cases hcall' with h | ⟨hle, hmem⟩
    · exact .inl h
    · obtain rfl := List.mem_singleton.1 hmem
      exact .inr (.inl ⟨hle, .comes hcomes⟩)
  | shutdown timeout htasks =>
    rcases append_cases hcall' with h | ⟨hle, hmem⟩
    · exact .inl h
    · refine .inr (.inl ⟨hle, ?_⟩)
      rcases List.mem_cons.1 hmem with rfl | hmem
      · exact .join _ _
      · obtain ⟨t, ht, rfl⟩ := List.mem_map.1 hmem
        obtain ⟨s, hs, hsupervised⟩ := htasks t ht
        exact .guard hs hsupervised timeout
  | openWindow hcall hstage hrun hperm =>
    refine hset hcall hcall' (.openWindow hstage ?_)
    rcases hrun with ⟨hwaiting, -⟩ | ⟨hqueued, -, hqueue⟩
    · exact .inl hwaiting
    · exact .inr ⟨hqueued, hqueue⟩
  | release hcall hrun hrunning hqueue =>
    exact hset hcall hcall' (.release hrun hrunning hqueue rfl rfl)
  | settle hcall hrun hrunning hqueue hok =>
    exact hset hcall hcall' (.settle hrun hqueue rfl hok)
  | force hcall hstage hrun hrunning hqueue hgoing =>
    exact hset hcall hcall' (.force hstage hrun hqueue hgoing)
  | join hcall hstage hrun => exact hset hcall hcall' (.join hstage hrun)
  | joinLast hcall hstage hrun => exact hset hcall hcall' (.joinLast hstage hrun _)
  | callOff hcall hrun => exact hset hcall hcall' (.callOff (.inl hrun))
  | callOffQueued hcall hrun => exact hset hcall hcall' (.callOff (.inr hrun))
  | callOffLater hcall hrun => exact hset hcall hcall' (.callOffLater hrun)
  | reply hcall hstage hrun result => exact hset hcall hcall' (.reply hstage hrun result)
  | _ => exact .inl hcall'

/-- A call stays, as it was or gone on. -/
theorem Move.call_next (hmove : o.Move o') (hcall : o.calls[c]? = some call) :
    ∃ call', o'.calls[c]? = some call' ∧ (call' = call ∨ o.Goes o' c call call') := by
  have hlt := (List.getElem?_eq_some_iff.1 hcall).1
  have hcall' := List.getElem?_eq_getElem (Nat.lt_of_lt_of_le hlt hmove.grow.2)
  refine ⟨_, hcall', ?_⟩
  rcases hmove.call_cases hcall' with hsame | ⟨hle, -⟩ | ⟨call₁, hcall₁, hgoes⟩
  · exact .inl (Option.some.inj (hsame.symm.trans hcall))
  · omega
  · obtain rfl := Option.some.inj (hcall.symm.trans hcall₁)
    exact .inr hgoes

theorem Alters.becomes {s' : Sign} (halters : o.Alters o' t s s') : s.Becomes s' := by
  cases halters with
  | change hrun hsupervised hwatchers houtside hhungry hsame =>
    exact ⟨hsupervised, fun h => hrun.trans h, houtside⟩
  | halt hgoing hinside hrun => exact ⟨rfl, fun h => absurd h hgoing, id⟩
  | yield hgoing hinside => exact ⟨rfl, fun h => absurd h hgoing, id⟩
  | wake hrun cancelled hungry =>
    refine ⟨rfl, fun h => ?_, id⟩
    rw [h] at hrun
    simp at hrun
  | cancelQueued hrun hqueue => exact ⟨rfl, fun h => absurd (hrun.symm.trans h) nofun, id⟩
  | resume hrun hmine => exact ⟨rfl, fun h => absurd (hrun.symm.trans h) nofun, id⟩
  | finish => exact ⟨rfl, fun _ => rfl, id⟩
  | watch hcall hwatches hsame => exact ⟨rfl, id, id⟩
  | unwatch c hsame => exact ⟨rfl, id, id⟩

theorem Move.sign (hmove : o.Move o') {s' : Sign} (hs' : o'.signs[t]? = some s') :
    (∃ s, o.signs[t]? = some s ∧ s.Becomes s') ∨
      o.signs.length ≤ t ∧ ∃ run supervised, s' = Sign.new run supervised := by
  rcases hmove.sign_cases hs' with ⟨hs, -⟩ | ⟨rfl, hnew | ⟨hnew, -⟩⟩ | ⟨s, hs, halters⟩
  · exact .inl ⟨s', hs, .refl s'⟩
  · exact .inr ⟨Nat.le_refl _, _, _, hnew⟩
  · exact .inr ⟨Nat.le_refl _, _, _, hnew⟩
  · exact .inl ⟨s, hs, halters.becomes⟩

/-- What a call has returned is final. -/
theorem Goes.going {call' : Call} (hgoes : o.Goes o' c call call')
    (result : Except Fault CallAnswer) : call.run ≠ .done result := by
  intro hdone
  cases hgoes with
  | openWindow _ hrun =>
    rcases hrun with ⟨cancelled, hrun⟩ | ⟨hrun, -⟩ <;> cases hrun.symm.trans hdone
  | callOff hrun => rcases hrun with hrun | hrun <;> cases hrun.symm.trans hdone
  | release hrun | settle hrun | force _ hrun | join _ hrun | joinLast _ hrun | callOffLater hrun
  | reply _ hrun => cases hrun.symm.trans hdone

theorem Goes.becomes {call' : Call} (hgoes : o.Goes o' c call call') : call.Becomes call' := by
  have hgoing := hgoes.going
  cases hgoes with
  | release | settle | callOff | callOffLater => exact .rerun hgoing _
  | openWindow hstage | force hstage | join hstage | joinLast hstage | reply hstage =>
    refine ⟨rfl, ?_, ?_, ?_, fun result hdone => absurd hdone (hgoing result)⟩
    · simp [Call.target?, hstage]
    · simp [Call.watches?, hstage]
    · simp [hstage]

theorem Move.call_of (hmove : o.Move o') {call' : Call} (hcall' : o'.calls[c]? = some call') :
    (∃ call, o.calls[c]? = some call ∧ call.Becomes call') ∨
      o.calls.length ≤ c ∧ o.Arrives call' := by
  rcases hmove.call_cases hcall' with hcall | harrives | ⟨call, hcall, hgoes⟩
  · exact .inl ⟨call', hcall, .refl call'⟩
  · exact .inr harrives
  · exact .inl ⟨call, hcall, hgoes.becomes⟩

/-- A call stays what it is. -/
theorem Move.keeps_call (hmove : o.Move o') (hcall : o.calls[c]? = some call) :
    ∃ call', o'.calls[c]? = some call' ∧ call.Becomes call' := by
  obtain ⟨call', hcall', rfl | hgoes⟩ := hmove.call_next hcall
  · exact ⟨call', hcall', .refl call'⟩
  · exact ⟨call', hcall', hgoes.becomes⟩

/-- What has ended stays so. -/
theorem Move.ended (hmove : o.Move o') (hlt : t < o.signs.length) (hended : o.Ended t) :
    o'.Ended t := by
  intro s' hs'
  rcases hmove.sign hs' with ⟨s, hs, hbecomes⟩ | ⟨hle, -⟩
  · exact hbecomes.ended (hended s hs)
  · omega

/-! ## Told of an end -/

/-- A call is told of the end of a task. -/
def Watches (o : Office) (c t : Nat) : Prop :=
  ∃ call, o.calls[c]? = some call ∧ call.watches? = some t

theorem Move.watches (hmove : o.Move o') (hwatches : o.Watches c t) : o'.Watches c t := by
  obtain ⟨call, hcall, hwatches⟩ := hwatches
  obtain ⟨call', hcall', hbecomes⟩ := hmove.keeps_call hcall
  exact ⟨call', hcall', hbecomes.watches t hwatches⟩

/-- All jobs that are still to come. -/
def jobs (o : Office) : List Job := o.queue ++ o.timers

/-- The calls whose windows are still to be closed. -/
def closes (o : Office) : List Nat := o.jobs.filterMap Job.close?

/-- A call waits for the end of a task until its window is closed; if it does not wait any more
although it is not called off, the task has ended in time. -/
def Closing (o : Office) (c : Nat) : Prop :=
  ∃ call t timeout, o.calls[c]? = some call ∧ call.stage = .window t timeout ∧
    (call.run = .queued false → o.Ended t)

/-- What is true at any time of the calls that wait for the end of a task. -/
structure Told (o : Office) : Prop where
  known : ∀ (c : Nat) (call : Call) (t : Nat), o.calls[c]? = some call →
    call.target? = some t → t < o.signs.length
  watched : ∀ (t : Nat) (s : Sign) (c : Nat), o.signs[t]? = some s → c ∈ s.watchers →
    o.Watches c t
  told : ∀ c, .taskEnded c ∈ o.jobs → ∃ t, o.Watches c t ∧ o.Ended t
  timers : ∀ j ∈ o.timers, Plain j ∨ ∃ c, j = .close c
  once : o.closes.Nodup
  closes : ∀ c ∈ o.closes, o.Closing c
  /-- Only a call that was told of the end of its task is over. -/
  settled : ∀ (c : Nat) (call : Call) (t : Nat), o.calls[c]? = some call →
    call.target? = some t → call.IsOver → o.Ended t ∧ call.watches? = some t

theorem target_of_watches (hwatches : call.watches? = some t) : call.target? = some t := by
  unfold Call.watches? at hwatches
  unfold Call.target?
  cases hstage : call.stage <;> simp_all

theorem Told.known_of (h : o.Told) (hwatches : o.Watches c t) : t < o.signs.length := by
  obtain ⟨call, hcall, hwatches⟩ := hwatches
  exact h.known c call t hcall (target_of_watches hwatches)

/-- A call is about a task that was there before. -/
theorem known_before (h : o.Told) (hmove : o.Move o') {call' : Call}
    (hcall' : o'.calls[c]? = some call') (htarget : call'.target? = some t) :
    t < o.signs.length := by
  rcases hmove.call_of hcall' with ⟨call, hcall, hbecomes⟩ | ⟨-, harrives⟩
  · exact h.known c call t hcall (hbecomes.target ▸ htarget)
  · cases harrives with
    | comes hcomes =>
      cases hcomes with
      | ask u => cases htarget
      | refused u fault => cases htarget
      | wait hs =>
        obtain rfl := Option.some.inj htarget
        exact (List.getElem?_eq_some_iff.1 hs).1
      | stop hs hsupervised timeout =>
        obtain rfl := Option.some.inj htarget
        exact (List.getElem?_eq_some_iff.1 hs).1
    | join children left => cases htarget
    | guard hs hsupervised timeout =>
      obtain rfl := Option.some.inj htarget
      exact (List.getElem?_eq_some_iff.1 hs).1

theorem watched_move (h : o.Told) (hmove : o.Move o') {s' : Sign} (hs' : o'.signs[t]? = some s')
    (hc : c ∈ s'.watchers) : o'.Watches c t := by
  have hold : ∀ {s : Sign}, o.signs[t]? = some s → c ∈ s.watchers → o'.Watches c t :=
    fun hs hc => hmove.watches (h.watched t _ c hs hc)
  rcases hmove.sign_cases hs' with ⟨hs, -⟩ | ⟨-, rfl | ⟨rfl, -⟩⟩ | ⟨s, hs, halters⟩
  · exact hold hs hc
  · cases hc
  · cases hc
  · cases halters with
    | change hrun hsupervised hwatchers => exact hold hs (hwatchers ▸ hc)
    | finish => cases hc
    | unwatch d => exact hold hs (List.mem_filter.1 hc).1
    | @watch d call hcall hwatches =>
      rcases List.mem_append.1 hc with hc | hc
      · exact hold hs hc
      · obtain rfl := List.mem_singleton.1 hc
        exact hmove.watches ⟨call, hcall, hwatches⟩
    | _ => exact hold hs hc

/-- Only a task that ends, or has ended, is told of. -/
theorem told_move (h : o.Told) (hmove : o.Move o') (hc : .taskEnded c ∈ o'.jobs) :
    ∃ t, o'.Watches c t ∧ o'.Ended t := by
  have hold : .taskEnded c ∈ o.jobs → ∃ t, o'.Watches c t ∧ o'.Ended t := by
    intro hc
    obtain ⟨t, hwatches, hended⟩ := h.told c hc
    exact ⟨t, hmove.watches hwatches, hmove.ended (h.known_of hwatches) hended⟩
  have hsame := hmove
  cases hmove with
  | @finish t s hs hrun hrunning =>
    by_cases hthere : .taskEnded c ∈ o.jobs
    · exact hold hthere
    · have hmem : c ∈ s.watchers := by
        simp [jobs, setSign] at hc hthere
        grind
      refine ⟨t, hsame.watches (h.watched t s c hs hmem), fun s' hs' => ?_⟩
      rcases set_cases hs' with ⟨-, rfl⟩ | ⟨hne, -⟩
      · rfl
      · exact absurd rfl hne
  | @watchEnded d t call hcall hwatches hended =>
    by_cases hthere : .taskEnded c ∈ o.jobs
    · exact hold hthere
    · have hd : d = c := by
        simp [jobs, Office.push] at hc hthere
        grind
      subst hd
      exact ⟨t, ⟨call, hcall, hwatches⟩, hended⟩
  | turn hperm =>
    refine hold ?_
    simp [jobs] at hc ⊢
    rw [hperm.mem_iff]
    grind
  | timer hplain hperm =>
    refine hold ?_
    simp [jobs] at hc ⊢
    rw [hperm.mem_iff] at hc
    rcases hc with hc | hc
    · exact .inl hc
    · rcases List.mem_cons.1 hc with rfl | hc
      · exact hplain.elim
      · exact .inr hc
  | openWindow hcall hstage hrun hperm =>
    refine hold ?_
    simp [jobs] at hc ⊢
    rw [hperm.mem_iff] at hc
    grind
  | _ =>
    refine hold ?_
    simp [jobs, Office.push, setSign, setCall, report] at hc ⊢
    grind [Plain]

theorem timers_move (h : o.Told) (hmove : o.Move o') (hj : j ∈ o'.timers) :
    Plain j ∨ ∃ c, j = .close c := by
  have hold : j ∈ o.timers → Plain j ∨ ∃ c, j = .close c := h.timers j
  cases hmove with
  | timer hplain hperm =>
    rcases List.mem_cons.1 (hperm.mem_iff.1 hj) with rfl | hj
    · exact .inl hplain
    · exact hold hj
  | openWindow hcall hstage hrun hperm =>
    rcases List.mem_cons.1 (hperm.mem_iff.1 hj) with rfl | hj
    · exact .inr ⟨_, rfl⟩
    · exact hold hj
  | turn hperm => exact hold (hperm.mem_iff.2 (List.mem_append_right _ hj))
  | dropTimers keep => exact hold (List.mem_filter.1 hj).1
  | _ => exact hold hj

theorem Plain.close (hplain : Plain j) : j.close? = none := by
  cases j <;> first | rfl | exact hplain.elim

/-- The windows that are to be closed are those that were, but for one that opens. -/
theorem Move.closes (hmove : o.Move o') : o'.closes.Subperm o.closes ∨
    ∃ c call t timeout, o.calls[c]? = some call ∧ call.stage = .closing t timeout ∧
      o'.calls = o.calls.set c { call with stage := .window t timeout, run := .waiting false } ∧
      o'.closes.Subperm (c :: o.closes) := by
  cases hmove with
  | openWindow hcall hstage hrun hperm =>
    rename_i rest
    refine .inr ⟨_, _, _, _, hcall, hstage, rfl, ?_⟩
    have hrest : rest.filterMap Job.close? = o.queue.filterMap Job.close? := by
      rcases hrun with ⟨-, rfl⟩ | ⟨-, -, hqueue⟩
      · rfl
      · simp [hqueue, List.filterMap_cons, Job.close?]
    have htimers := hperm.filterMap Job.close?
    simp only [List.filterMap_cons, Job.close?] at htimers
    simp only [Office.closes, jobs, List.filterMap_append, hrest]
    exact ((htimers.append_left _).trans List.perm_middle).subperm
  | turn hperm =>
    have htimers := hperm.filterMap Job.close?
    simp only [List.filterMap_append] at htimers
    refine .inl (List.Perm.subperm ?_)
    simp only [Office.closes, jobs, List.filterMap_append, List.append_assoc]
    exact (htimers.append_left _).symm
  | timer hplain hperm =>
    have htimers := hperm.filterMap Job.close?
    simp only [List.filterMap_cons, hplain.close] at htimers
    refine .inl (List.Perm.subperm ?_)
    simp only [Office.closes, jobs, List.filterMap_append]
    exact htimers.append_left _
  | dropTimers keep =>
    refine .inl (List.Sublist.subperm ?_)
    simp only [Office.closes, jobs]
    exact (List.Sublist.append_left List.filter_sublist _).filterMap _
  | drop hqueue hmoot =>
    refine .inl (List.Sublist.subperm ?_)
    simp only [Office.closes, jobs, hqueue]
    exact (List.sublist_cons_self ..).filterMap _
  | release hcall hrun hrunning hqueue =>
    rcases hqueue with hqueue | hqueue
    · refine .inl (List.Perm.subperm (.of_eq ?_))
      simp [Office.closes, jobs, setCall, hqueue, List.filterMap_cons, Job.close?]
    · refine .inl (List.Sublist.subperm ?_)
      simp [Office.closes, jobs, setCall, hqueue, List.filterMap_cons, Job.close?]
  | settle hcall hrun hrunning hqueue hok =>
    rename_i call _ _ _
    refine .inl (List.Perm.subperm (.of_eq ?_))
    cases hparent : call.parent <;>
      simp [Office.closes, jobs, setCall, hqueue, report, hparent, List.filterMap_cons, Job.close?]
  | finish hs hrun hrunning =>
    rename_i s
    refine .inl (List.Perm.subperm (.of_eq ?_))
    cases s.supervised <;>
      simp [Office.closes, jobs, setSign, List.filterMap_cons, List.filterMap_map,
        Function.comp_def, Job.close?]
  | push hplain =>
    refine .inl (List.Perm.subperm (.of_eq ?_))
    simp [Office.closes, jobs, Office.push, hplain.close]
  | shutdown timeout htasks =>
    refine .inl (List.Perm.subperm (.of_eq ?_))
    simp [Office.closes, jobs, List.filterMap_map, Function.comp_def, Job.close?]
  | _ =>
    refine .inl (List.Perm.subperm (.of_eq ?_))
    simp [Office.closes, jobs, Office.push, setSign, setCall, List.filterMap_cons, Job.close?, *]

theorem nodup_of_subperm {l m : List Nat} (hsub : l.Subperm m) (hm : m.Nodup) : l.Nodup := by
  obtain ⟨k, hperm, hsub⟩ := hsub
  exact hperm.nodup_iff.1 (hm.sublist hsub)

theorem once_move (h : o.Told) (hmove : o.Move o') : o'.closes.Nodup := by
  rcases hmove.closes with hsub | ⟨c, call, t, timeout, hcall, hstage, -, hsub⟩
  · exact nodup_of_subperm hsub h.once
  · refine nodup_of_subperm hsub (List.nodup_cons.2 ⟨fun hmem => ?_, h.once⟩)
    obtain ⟨call', t', timeout', hcall', hwindow, -⟩ := h.closes c hmem
    obtain rfl := Option.some.inj (hcall.symm.trans hcall')
    cases hstage.symm.trans hwindow

/-- The call that is released has been told of an end, or its window is closed. -/
theorem Told.released (h : o.Told) (hcall : o.calls[c]? = some call) {rest : List Job}
    (hqueue : o.queue = .taskEnded c :: rest ∨ o.queue = .close c :: rest)
    (htarget : call.target? = some t) :
    o.Ended t ∨ o.closes = c :: (rest ++ o.timers).filterMap Job.close? := by
  rcases hqueue with hqueue | hqueue
  · obtain ⟨u, ⟨other, hother, hwatches⟩, hended⟩ := h.told c (by simp [jobs, hqueue])
    obtain rfl := Option.some.inj (hcall.symm.trans hother)
    obtain rfl := Option.some.inj (htarget.symm.trans (target_of_watches hwatches))
    exact .inl hended
  · refine .inr ?_
    simp [Office.closes, jobs, hqueue, Job.close?]

/-- A call whose window is still to be closed goes on at its window. -/
theorem Goes.closing {call' : Call} (h : o.Told) (hcall : o.calls[c]? = some call)
    (hgoes : o.Goes o' c call call') (hc : c ∈ o'.closes) {timeout : Number}
    (hwindow : call.stage = .window t timeout) (hover : call.run = .queued false → o.Ended t) :
    call'.stage = .window t timeout ∧ (call'.run = .queued false → o.Ended t) := by
  cases hgoes with
  | @release cancelled rest hrun hrunning hqueue hqueue' htimers =>
    refine ⟨hwindow, fun _ => ?_⟩
    rcases h.released (t := t) hcall hqueue (by simp [Call.target?, hwindow]) with hended | hcloses
    · exact hended
    · have hfirst := (List.nodup_cons.1 (hcloses ▸ h.once)).1
      refine absurd hc fun hc => hfirst ?_
      simpa [Office.closes, jobs, hqueue', htimers, List.filterMap_cons, Job.close?] using hc
  | force hstage hrun hqueue hgoing =>
    cases hstage.symm.trans hwindow
    exact absurd (hover hrun) hgoing
  | settle | callOff | callOffLater => exact ⟨hwindow, nofun⟩
  | openWindow hstage | join hstage | joinLast hstage | reply hstage =>
    cases hstage.symm.trans hwindow

theorem closes_move (h : o.Told) (hmove : o.Move o') (hc : c ∈ o'.closes) : o'.Closing c := by
  have hold : c ∈ o.closes → o'.Closing c := by
    intro hmem
    obtain ⟨call, t, timeout, hcall, hwindow, hover⟩ := h.closes c hmem
    have hended : o.Ended t → o'.Ended t :=
      hmove.ended (h.known c call t hcall (by simp [Call.target?, hwindow]))
    obtain ⟨call', hcall', rfl | hgoes⟩ := hmove.call_next hcall
    · exact ⟨call', t, timeout, hcall', hwindow, hended ∘ hover⟩
    · obtain ⟨hwindow', hover'⟩ := hgoes.closing h hcall hc hwindow hover
      exact ⟨call', t, timeout, hcall', hwindow', hended ∘ hover'⟩
  rcases hmove.closes with hsub | ⟨d, call, t, timeout, hcall, hstage, hcalls, hsub⟩
  · exact hold (hsub.subset hc)
  · rcases List.mem_cons.1 (hsub.subset hc) with rfl | hmem
    · refine ⟨{ call with stage := .window t timeout, run := .waiting false }, t, timeout, ?_,
        rfl, nofun⟩
      rw [hcalls]
      exact List.getElem?_set_self (List.getElem?_eq_some_iff.1 hcall).1
    · exact hold hmem

theorem Arrives.not_over (harrives : o.Arrives call) : ¬call.IsOver := by
  rintro (⟨a, hdone⟩ | ⟨hqueued, t, hstage | hstage⟩)
  · cases harrives with
    | comes hcomes => cases hcomes <;> cases hdone
    | _ => cases hdone
  · cases harrives with
    | comes hcomes => cases hcomes <;> cases hqueued
    | join children left => cases hqueued
    | guard hs hsupervised timeout => cases hstage
  · cases harrives with
    | comes hcomes => cases hcomes <;> cases hqueued
    | join children left => cases hqueued
    | guard hs hsupervised timeout => cases hstage

/-- On its way out in peace is who waited for an end, and not the call whose window closes. -/
theorem Told.over_of_released (h : o.Told) (hcall : o.calls[c]? = some call) {rest : List Job}
    (hqueue : o.queue = .taskEnded c :: rest ∨ o.queue = .close c :: rest)
    (htarget : call.target? = some t)
    (hstage : ∃ u, call.stage = .exit u ∨ call.stage = .forced u) :
    o.Ended t ∧ call.watches? = some t := by
  obtain ⟨u, hstage⟩ := hstage
  have hwatches : call.watches? = some t := by
    rcases hstage with hstage | hstage <;>
      simpa [Call.target?, Call.watches?, hstage] using htarget
  refine ⟨?_, hwatches⟩
  rcases h.released hcall hqueue htarget with hended | hcloses
  · exact hended
  · obtain ⟨other, v, timeout, hother, hwindow, -⟩ := h.closes c (hcloses ▸ List.mem_cons_self)
    obtain rfl := Option.some.inj (hcall.symm.trans hother)
    rcases hstage with hstage | hstage <;> cases hwindow.symm.trans hstage

/-- A call that returns no fault has been told of the end of its task. -/
theorem Told.over_of_settled (h : o.Told) (hcall : o.calls[c]? = some call)
    (hrun : call.run = .queued false) (hsettles : o.Settles call.stage)
    (htarget : call.target? = some t) : o.Ended t ∧ call.watches? = some t := by
  cases hstage : call.stage with
  | window u timeout =>
    rw [hstage] at hsettles
    obtain rfl : u = t := by simpa [Call.target?, hstage] using htarget
    exact ⟨hsettles, by simp [Call.watches?, hstage]⟩
  | closing u timeout =>
    rw [hstage] at hsettles
    exact hsettles.elim
  | exit u => exact h.settled c call t hcall htarget (.inr ⟨hrun, u, .inl hstage⟩)
  | forced u => exact h.settled c call t hcall htarget (.inr ⟨hrun, u, .inr hstage⟩)
  | reply u answer => simp [Call.target?, hstage] at htarget
  | join children left => simp [Call.target?, hstage] at htarget

theorem Goes.over {call' : Call} (h : o.Told) (hcall : o.calls[c]? = some call)
    (hgoes : o.Goes o' c call call') (htarget : call'.target? = some t) (hover : call'.IsOver) :
    o.Ended t ∧ call'.watches? = some t := by
  cases hgoes with
  | release hrun hrunning hqueue =>
    have htarget : call.target? = some t := htarget
    rcases hover with ⟨a, hdone⟩ | ⟨-, hstage⟩
    · cases hdone
    · show o.Ended t ∧ call.watches? = some t
      exact h.over_of_released hcall hqueue htarget hstage
  | @settle cancelled rest result hrun hqueue hqueue' hok =>
    have htarget : call.target? = some t := htarget
    obtain ⟨a, hdone⟩ : ∃ a, result = .ok a := by simpa [Call.IsOver] using hover
    obtain ⟨rfl, hsettles⟩ := hok a hdone
    show o.Ended t ∧ call.watches? = some t
    exact h.over_of_settled hcall hrun hsettles htarget
  | join | joinLast | reply => cases htarget
  | _ => simp [Call.IsOver] at hover

theorem over_move (h : o.Told) (hmove : o.Move o') {call' : Call}
    (hcall' : o'.calls[c]? = some call') (htarget : call'.target? = some t)
    (hover : call'.IsOver) : o'.Ended t ∧ call'.watches? = some t := by
  have hended : o.Ended t → o'.Ended t := hmove.ended (known_before h hmove hcall' htarget)
  rcases hmove.call_cases hcall' with hcall | ⟨-, harrives⟩ | ⟨call, hcall, hgoes⟩
  · exact (h.settled c call' t hcall htarget hover).imp_left hended
  · exact absurd hover harrives.not_over
  · exact (hgoes.over h hcall htarget hover).imp_left hended

theorem Told.move (h : o.Told) (hmove : o.Move o') : o'.Told where
  known _ _ _ hcall htarget := Nat.lt_of_lt_of_le (known_before h hmove hcall htarget) hmove.grow.1
  watched _ _ _ := watched_move h hmove
  told _ := told_move h hmove
  timers _ := timers_move h hmove
  once := once_move h hmove
  closes _ := closes_move h hmove
  settled _ _ _ := over_move h hmove

end Office
end Turnstile
