-- In which order ends are learnt. A task that is cancelled before its first step leaves an instance
-- behind that still takes requests; the supervisor learns of its end before any call that stops it
-- returns.
import Mathlib.Data.List.Nodup
import Turnstile.Proofs.Supervisor.Guards

namespace Turnstile

namespace Office

variable {o o' : Office} {t u c d p : Nat} {s : Sign} {call : Call} {j : Job}

/-- One job stands behind another one. -/
def Behind (queue : List Job) (first second : Job) : Prop := [first, second].Sublist queue

theorem Behind.append {q m : List Job} {a b : Job} (h : Behind (q ++ m) a b) :
    Behind q a b ∨ a ∈ q ∧ b ∈ m ∨ Behind m a b := by
  obtain ⟨l, k, hl, hq, hm⟩ := List.sublist_append_iff.1 h
  rcases l with - | ⟨x, - | ⟨y, l⟩⟩
  · rw [List.nil_append] at hl
    subst hl
    exact .inr (.inr hm)
  · obtain ⟨rfl, rfl⟩ := List.cons.inj hl
    exact .inr (.inl ⟨hq.subset List.mem_cons_self, hm.subset List.mem_cons_self⟩)
  · obtain ⟨rfl, rfl, hnil⟩ : a = x ∧ b = y ∧ [] = l ++ k := by simpa using hl
    obtain ⟨rfl, -⟩ := List.append_eq_nil_iff.1 hnil.symm
    exact .inl hq

theorem Behind.head {q : List Job} {a b : Job} (h : b ∈ q) : Behind (a :: q) a b :=
  (List.singleton_sublist.2 h).cons_cons a

theorem Behind.more {q : List Job} {a b : Job} (h : Behind q a b) (before : List Job) :
    Behind (before ++ q) a b := h.trans (List.sublist_append_right ..)

theorem Behind.mem {q : List Job} {a b : Job} (h : Behind q a b) : a ∈ q ∧ b ∈ q :=
  ⟨h.subset List.mem_cons_self, h.subset (List.mem_cons_of_mem _ List.mem_cons_self)⟩

/-! ## What leaves the queue, and what joins it -/

/-- A job that lets no task run, tells of no end of a task, and lets no call go on. -/
def Light : Job → Prop
  | .resume _ | .exited _ | .proceed _ => False
  | .taskEnded _ | .joined .. | .wake .. | .close _ | .announce .. => True

/-- A task that is to be started, or waits. -/
def Idle (s : Sign) : Prop :=
  s.run = .receiving ∨ s.run = .absent ∨ ∃ serial, s.run = .paused serial

/-- The queue loses jobs at its front, and gets others at its end. -/
structure Shifts (o o' : Office) (popped rest added : List Job) : Prop where
  before : o.queue = popped ++ rest
  behind : o'.queue = rest ++ added
  resumed : ∀ t, .resume t ∈ popped → ∀ s' cancelled, o'.signs[t]? = some s' →
    s'.run ≠ .queued cancelled
  resumes : ∀ t, .resume t ∈ added → o.signs.length ≤ t ∨
    ∃ s, o.signs[t]? = some s ∧ (s.outside = false ∨ Idle s)
  exits : ∀ t, .exited t ∈ added → ∃ s, o.signs[t]? = some s ∧ s.run = .active
  closes : ∀ c t, .close c ∈ added → .resume t ∉ added
  proceeds : ∀ c, .proceed c ∈ added →
    (∃ call' cancelled, o'.calls[c]? = some call' ∧ call'.run = .queued cancelled) ∧
    ∀ call cancelled, o.calls[c]? = some call → call.run ≠ .queued cancelled
  once : ∀ c, ¬Behind added (.proceed c) (.proceed c)

theorem shifts_light {popped rest added : List Job} (before : o.queue = popped ++ rest)
    (behind : o'.queue = rest ++ added) (hlight : ∀ j ∈ added, Light j)
    (hresumed : ∀ t, .resume t ∈ popped → ∀ s' cancelled, o'.signs[t]? = some s' →
      s'.run ≠ .queued cancelled) : o.Shifts o' popped rest added where
  before := before
  behind := behind
  resumed := hresumed
  resumes _ ht := (hlight _ ht).elim
  exits _ ht := (hlight _ ht).elim
  closes _ _ _ ht := hlight _ ht
  proceeds _ hc := (hlight _ hc).elim
  once _ hc := hlight _ hc.mem.1

/-- A task joins the queue. -/
theorem shifts_resume (behind : o'.queue = o.queue ++ [.resume t])
    (hresume : o.signs.length ≤ t ∨
      ∃ s, o.signs[t]? = some s ∧ (s.outside = false ∨ Idle s)) :
    o.Shifts o' [] o.queue [.resume t] where
  before := rfl
  behind := behind
  resumed t ht := nomatch ht
  resumes u hu := by
    obtain rfl : u = t := by simpa using hu
    exact hresume
  exits u hu := by simp at hu
  closes c u hc := by simp at hc
  proceeds c hc := by simp at hc
  once c hc := by simpa using hc.mem.1

/-- A call joins the queue. -/
theorem shifts_proceed {popped rest : List Job} (before : o.queue = popped ++ rest)
    (behind : o'.queue = rest ++ [.proceed c]) (hpopped : ∀ t, .resume t ∉ popped)
    (hcall : o.calls[c]? = some call) {cancelled : Bool} (hrun : call.run = .waiting cancelled)
    {call₁ : Call} (hcalls : o'.calls = o.calls.set c call₁) {cancelled₁ : Bool}
    (hrun₁ : call₁.run = .queued cancelled₁) : o.Shifts o' popped rest [.proceed c] where
  before := before
  behind := behind
  resumed t ht := absurd ht (hpopped t)
  resumes t ht := by simp at ht
  exits t ht := by simp at ht
  closes d t hd := by simp at hd
  proceeds d hd := by
    obtain rfl : d = c := by simpa using hd
    refine ⟨⟨call₁, cancelled₁, ?_, hrun₁⟩, ?_⟩
    · rw [hcalls]
      exact List.getElem?_set_self (List.getElem?_eq_some_iff.1 hcall).1
    · intro other b hother hqueued
      obtain rfl := Option.some.inj (hcall.symm.trans hother)
      cases hrun.symm.trans hqueued
  once d hd := by
    have hlength := hd.length_le
    simp at hlength

/-- A task ends: the supervisor, and whoever waits for the end, is to be told. -/
theorem shifts_finish (hs : o.signs[t]? = some s) (hrun : s.run = .active)
    (behind : o'.queue =
      o.queue ++ ((if s.supervised then [.exited t] else []) ++ s.watchers.map .taskEnded)) :
    o.Shifts o' [] o.queue
      ((if s.supervised then [.exited t] else []) ++ s.watchers.map .taskEnded) where
  before := rfl
  behind := behind
  resumed u hu := nomatch hu
  resumes u hu := by cases hsupervised : s.supervised <;> simp [hsupervised] at hu
  exits u hu := by
    cases hsupervised : s.supervised with
    | false => simp [hsupervised] at hu
    | true =>
      obtain rfl : u = t := by simpa [hsupervised] using hu
      exact ⟨s, hs, hrun⟩
  closes c u hc := by cases hsupervised : s.supervised <;> simp [hsupervised] at hc
  proceeds c hc := by cases hsupervised : s.supervised <;> simp [hsupervised] at hc
  once c hc := by
    have hmem := hc.mem.1
    cases hsupervised : s.supervised <;> simp [hsupervised] at hmem

/-- A shutdown comes, and all its calls join the queue. -/
theorem shifts_shutdown {timeout : Number} {tasks : List Nat}
    (behind : o'.queue =
      o.queue ++ (List.range' (o.calls.length + 1) tasks.length).map .proceed)
    (hcalls : o'.calls = o.calls ++ o.family timeout tasks) :
    o.Shifts o' [] o.queue ((List.range' (o.calls.length + 1) tasks.length).map .proceed) where
  before := rfl
  behind := behind
  resumed t ht := nomatch ht
  resumes t ht := by simp at ht
  exits t ht := by simp at ht
  closes c t hc := by simp at hc
  proceeds c hc := by
    obtain ⟨i, hi, rfl⟩ : ∃ i < tasks.length, c = o.calls.length + 1 + i := by
      simp [List.mem_range'] at hc
      obtain ⟨i, hi, rfl⟩ := hc
      exact ⟨i, hi, rfl⟩
    refine ⟨⟨guard o.calls.length timeout tasks[i], false, ?_, rfl⟩, ?_⟩
    · rw [hcalls]
      exact family_guard timeout hi
    · intro call b hcall
      have hlt := (List.getElem?_eq_some_iff.1 hcall).1
      omega
  once c hc := by
    have hnodup : ((List.range' (o.calls.length + 1) tasks.length).map Job.proceed).Nodup :=
      List.Nodup.map (fun _ _ => Job.proceed.inj) List.nodup_range'
    exact List.nodup_iff_sublist.1 hnodup _ hc

theorem Plain.light (hplain : Plain j) : Light j := by
  cases j <;> trivial

theorem light_report (call : Call) (result : Except Fault CallAnswer) :
    ∀ j ∈ report call result, Light j := by
  unfold report
  cases call.parent with
  | none => nofun
  | some p =>
    intro j hj
    obtain rfl := List.mem_singleton.1 hj
    trivial

theorem Move.shifts (h : o.Told) (hmove : o.Move o') :
    ∃ popped rest added, o.Shifts o' popped rest added := by
  have hsame : o'.queue = o.queue → ∃ popped rest added, o.Shifts o' popped rest added :=
    fun hqueue => ⟨[], o.queue, [], shifts_light rfl (by simp [hqueue]) (by simp) (by simp)⟩
  have hpush : ∀ {j : Job}, o'.queue = o.queue ++ [j] → Light j →
      ∃ popped rest added, o.Shifts o' popped rest added := by
    intro j hqueue hlight
    refine ⟨[], o.queue, [j], shifts_light rfl hqueue (fun i hi => ?_) (by simp)⟩
    obtain rfl := List.mem_singleton.1 hi
    exact hlight
  have hpop : ∀ {j : Job} {rest added : List Job}, o.queue = j :: rest →
      o'.queue = rest ++ added → (∀ t, j ≠ .resume t) → (∀ j ∈ added, Light j) →
      ∃ popped rest added, o.Shifts o' popped rest added := by
    intro j rest added hqueue hqueue' hj hlight
    refine ⟨[j], rest, added, shifts_light hqueue hqueue' hlight fun t ht => ?_⟩
    exact absurd (List.mem_singleton.1 ht).symm (hj t)
  cases hmove with
  | yield hs hgoing hinside hmine => exact ⟨_, _, _, shifts_resume rfl (.inr ⟨_, hs, .inl hinside⟩)⟩
  | wake hs hrun cancelled hungry => exact ⟨_, _, _, shifts_resume rfl (.inr ⟨_, hs, .inr hrun⟩)⟩
  | spawn => exact ⟨_, _, _, shifts_resume rfl (.inl (Nat.le_refl _))⟩
  | @resume t s cancelled rest hs hrun hrunning hqueue =>
    refine ⟨[.resume t], rest, [], shifts_light hqueue (by simp) (by simp) fun u hu s' b hs' => ?_⟩
    obtain rfl : u = t := by simpa using hu
    rcases set_cases hs' with ⟨-, rfl⟩ | ⟨hne, -⟩
    · nofun
    · exact absurd rfl hne
  | @drop j rest hqueue hmoot =>
    refine ⟨[j], rest, [], shifts_light hqueue (by simp) (by simp) fun t ht s' b hs' => ?_⟩
    obtain rfl : Job.resume t = j := by simpa using ht
    exact hmoot s' b hs'
  | finish hs hrun hrunning => exact ⟨_, _, _, shifts_finish hs hrun (List.append_assoc ..)⟩
  | @turn due rest hperm =>
    refine ⟨[], o.queue, due, shifts_light rfl rfl (fun j hj => ?_) (by simp)⟩
    rcases h.timers j (hperm.mem_iff.2 (List.mem_append_left _ hj)) with hplain | ⟨c, rfl⟩
    · exact hplain.light
    · trivial
  | shutdown timeout htasks => exact ⟨_, _, _, shifts_shutdown rfl rfl⟩
  | push hplain => exact hpush rfl hplain.light
  | watchEnded hcall hwatches hended => exact hpush rfl trivial
  | @openWindow c t call timeout timers rest hcall hstage hrun hperm =>
    rcases hrun with ⟨-, hrest⟩ | ⟨-, -, hqueue⟩
    · exact hsame hrest
    · exact hpop hqueue (List.append_nil _).symm (by simp) (by simp)
  | @release c call cancelled rest hcall hrun hrunning hqueue =>
    rcases hqueue with hqueue | hqueue
    · have before : o.queue = [.taskEnded c] ++ rest := hqueue
      exact ⟨_, _, _, shifts_proceed before rfl (by simp) hcall hrun rfl rfl⟩
    · have before : o.queue = [.close c] ++ rest := hqueue
      exact ⟨_, _, _, shifts_proceed before rfl (by simp) hcall hrun rfl rfl⟩
  | settle hcall hrun hrunning hqueue hok => exact hpop hqueue rfl (by simp) (light_report _ _)
  | force hcall hstage hrun hrunning hqueue hgoing =>
    exact hpop hqueue (List.append_nil _).symm (by simp) (by simp)
  | join hcall hstage hrun hrunning hqueue hleft =>
    exact hpop hqueue (List.append_nil _).symm (by simp) (by simp)
  | joinLast hcall hstage hrun hrunning hqueue hleft =>
    rename_i p call children left requested cancelled rest
    have before : o.queue = [.joined p cancelled] ++ rest := hqueue
    exact ⟨_, _, _, shifts_proceed before rfl (by simp) hcall hrun rfl rfl⟩
  | callOff hcall hrun =>
    have before : o.queue = [] ++ o.queue := rfl
    exact ⟨_, _, _, shifts_proceed before rfl (by simp) hcall hrun rfl rfl⟩
  | reply hcall hstage hrun result =>
    have before : o.queue = [] ++ o.queue := rfl
    exact ⟨_, _, _, shifts_proceed before rfl (by simp) hcall hrun rfl rfl⟩
  | _ => exact hsame rfl

/-! ## What becomes of calls that are told of an end -/

theorem Arrives.waiting (harrives : o.Arrives call) (hwatches : call.watches? = some t) :
    call.run = .waiting false := by
  cases harrives with
  | comes hcomes =>
    cases hcomes with
    | wait hs => rfl
    | _ => cases hwatches
  | _ => cases hwatches

/-- A call that comes to be told of an end waits, and its window is not yet to be closed. -/
theorem Move.watches_of (h : o.Told) (hmove : o.Move o') {call' : Call}
    (hcall' : o'.calls[c]? = some call') (hwatches : call'.watches? = some t) :
    (∃ call, o.calls[c]? = some call ∧ call.watches? = some t) ∨
      call'.run = .waiting false ∧ c ∉ o.closes := by
  rcases hmove.call_cases hcall' with hcall | ⟨hle, harrives⟩ | ⟨call, hcall, hgoes⟩
  · exact .inl ⟨call', hcall, hwatches⟩
  · refine .inr ⟨harrives.waiting hwatches, fun hclose => ?_⟩
    obtain ⟨call, -, -, hcall, -⟩ := h.closes c hclose
    have hlt := (List.getElem?_eq_some_iff.1 hcall).1
    omega
  · cases hgoes with
    | openWindow hstage =>
      refine .inr ⟨rfl, fun hclose => ?_⟩
      obtain ⟨other, u, timeout, hother, hwindow, -⟩ := h.closes c hclose
      obtain rfl := Option.some.inj (hcall.symm.trans hother)
      cases hstage.symm.trans hwindow
    | force hstage => exact .inl ⟨call, hcall, by rwa [Call.watches?, hstage]⟩
    | join | joinLast | reply => cases hwatches
    | _ => exact .inl ⟨call, hcall, hwatches⟩

/-- A call that is told of an end is on its way out in peace because it was, or because it has just
been released. -/
theorem Move.queued_of (hmove : o.Move o') {call' : Call} (hcall' : o'.calls[c]? = some call')
    (hwatches : call'.watches? = some t) (hrun' : call'.run = .queued false) :
    (∃ call, o.calls[c]? = some call ∧ call.watches? = some t ∧ call.run = .queued false) ∨
    ∃ call rest, o.calls[c]? = some call ∧ call.watches? = some t ∧
      (∃ cancelled, call.run = .waiting cancelled) ∧ o.running = none ∧
      (o.queue = .taskEnded c :: rest ∨ o.queue = .close c :: rest) ∧
      o'.queue = rest ++ [.proceed c] := by
  rcases hmove.call_cases hcall' with hcall | ⟨-, harrives⟩ | ⟨call, hcall, hgoes⟩
  · exact .inl ⟨call', hcall, hwatches, hrun'⟩
  · cases (harrives.waiting hwatches).symm.trans hrun'
  · cases hgoes with
    | @release cancelled rest hrun hrunning hqueue hqueue' =>
      exact .inr ⟨call, rest, hcall, hwatches, ⟨cancelled, hrun⟩, hrunning, hqueue, hqueue'⟩
    | joinLast | reply => cases hwatches
    | _ => cases hrun'

/-- A call that is told of an end has returned because it had, or because its turn came. -/
theorem Move.done_of (hmove : o.Move o') {call' : Call} (hcall' : o'.calls[c]? = some call')
    (hwatches : call'.watches? = some t) {a : CallAnswer} (hrun' : call'.run = .done (.ok a)) :
    (∃ call, o.calls[c]? = some call ∧ call.watches? = some t ∧ call.run = .done (.ok a)) ∨
    ∃ call rest added, o.calls[c]? = some call ∧ call.watches? = some t ∧
      call.run = .queued false ∧ o.queue = .proceed c :: rest ∧ o'.queue = rest ++ added ∧
      ∀ j ∈ added, Light j := by
  rcases hmove.call_cases hcall' with hcall | ⟨-, harrives⟩ | ⟨call, hcall, hgoes⟩
  · exact .inl ⟨call', hcall, hwatches, hrun'⟩
  · cases (harrives.waiting hwatches).symm.trans hrun'
  · cases hgoes with
    | @settle cancelled rest result hrun hqueue hqueue' hok =>
      obtain ⟨rfl, -⟩ := hok a (CallRun.done.inj hrun')
      exact .inr ⟨call, rest, report call result, hcall, hwatches, hrun, hqueue, hqueue',
        light_report call result⟩
    | _ => cases hrun'

/-- A call that is on its way out stays so until its turn comes. -/
theorem Move.still_queued (hmove : o.Move o') (hcall : o.calls[c]? = some call) {cancelled : Bool}
    (hrun : call.run = .queued cancelled) :
    (∃ call' cancelled, o'.calls[c]? = some call' ∧ call'.run = .queued cancelled) ∨
    ∃ rest added, o.queue = .proceed c :: rest ∧ o'.queue = rest ++ added ∧
      ∀ j ∈ added, Light j := by
  obtain ⟨call', hcall', rfl | hgoes⟩ := hmove.call_next hcall
  · exact .inl ⟨call', cancelled, hcall', hrun⟩
  · cases hgoes with
    | openWindow hstage hrun' =>
      rcases hrun' with ⟨b, hwaiting⟩ | ⟨-, hqueue⟩
      · cases hwaiting.symm.trans hrun
      · exact .inr ⟨o'.queue, [], hqueue, (List.append_nil _).symm, nofun⟩
    | settle hrun' hqueue hqueue' => exact .inr ⟨_, _, hqueue, hqueue', light_report _ _⟩
    | force hstage hrun' hqueue =>
      exact .inr ⟨o'.queue, [], hqueue, (List.append_nil _).symm, nofun⟩
    | callOff => exact .inl ⟨_, _, hcall', rfl⟩
    | release hwaiting | join _ hwaiting | joinLast _ hwaiting | callOffLater hwaiting
    | reply _ hwaiting => cases hwaiting.symm.trans hrun

/-! ## Stray tasks -/

/-- A task of the supervisor whose instance takes requests though its body is not in the loop. -/
def Stray (s : Sign) : Prop := s.supervised = true ∧ s.outside = true

/-- A stray task runs, is queued, or has ended. -/
def Posted (o : Office) (t : Nat) (s : Sign) : Prop :=
  s.run = .active ∧ o.running = some t ∨
    (∃ cancelled, s.run = .queued cancelled) ∧ .resume t ∈ o.queue ∨ s.run = .ended

/-- What is true at any time of the queue and the stray tasks. -/
structure InTurn (o : Office) : Prop where
  queued : ∀ c, .proceed c ∈ o.queue → ∃ call cancelled, o.calls[c]? = some call ∧
    call.run = .queued cancelled
  once : ∀ c, ¬Behind o.queue (.proceed c) (.proceed c)
  posted : ∀ t s, o.signs[t]? = some s → Stray s → o.Posted t s
  /-- No call that is told of the end of a stray task is released before that end. -/
  waits : ∀ (t : Nat) (s : Sign) (c : Nat) (call : Call), o.signs[t]? = some s → Stray s →
    o.calls[c]? = some call → call.watches? = some t → s.run ≠ .ended → call.run ≠ .queued false
  windows : ∀ (t : Nat) (s : Sign) (c : Nat) (call : Call), o.signs[t]? = some s → Stray s →
    o.calls[c]? = some call → call.watches? = some t → ¬Behind o.queue (.close c) (.resume t)
  exits : ∀ (t : Nat) (s : Sign) (c : Nat) (call : Call), o.signs[t]? = some s → Stray s →
    o.calls[c]? = some call → call.watches? = some t → call.run = .queued false →
    ¬Behind o.queue (.proceed c) (.exited t)
  settled : ∀ (t : Nat) (s : Sign) (c : Nat) (call : Call) (a : CallAnswer), o.signs[t]? = some s →
    Stray s → o.calls[c]? = some call → call.watches? = some t → call.run = .done (.ok a) →
    .exited t ∉ o.queue

theorem stray_of_becomes {s s' : Sign} (hbecomes : s.Becomes s') (hstray : Stray s') :
    Stray s := ⟨hbecomes.supervised.symm.trans hstray.1, hbecomes.outside hstray.2⟩

/-- A task with a call that is told of its end was there before. -/
theorem stray_before (h : o.Told) (hmove : o.Move o') {s' : Sign} (hs' : o'.signs[t]? = some s')
    (hstray : Stray s') {call' : Call} (hcall' : o'.calls[c]? = some call')
    (hwatches : call'.watches? = some t) :
    ∃ s, o.signs[t]? = some s ∧ s.Becomes s' ∧ Stray s := by
  rcases hmove.sign hs' with ⟨s, hs, hbecomes⟩ | ⟨hle, -⟩
  · exact ⟨s, hs, hbecomes, stray_of_becomes hbecomes hstray⟩
  · have hlt := known_before h hmove hcall' (target_of_watches hwatches)
    omega

theorem queued_move (h : o.InTurn) (hmove : o.Move o') {popped rest added : List Job}
    (hshifts : o.Shifts o' popped rest added) (hc : .proceed c ∈ o'.queue) :
    ∃ call cancelled, o'.calls[c]? = some call ∧ call.run = .queued cancelled := by
  rw [hshifts.behind] at hc
  rcases List.mem_append.1 hc with hc | hc
  · have hmem : .proceed c ∈ o.queue := hshifts.before ▸ List.mem_append_right _ hc
    obtain ⟨call, cancelled, hcall, hrun⟩ := h.queued c hmem
    rcases hmove.still_queued hcall hrun with hstill | ⟨rest', added', hqueue, hqueue', hlight⟩
    · exact hstill
    · -- Its turn has come, and it stands in the queue only once.
      have hin : .proceed c ∈ o'.queue := hshifts.behind ▸ List.mem_append_left _ hc
      rw [hqueue'] at hin
      rcases List.mem_append.1 hin with hin | hin
      · exact absurd (hqueue ▸ Behind.head hin) (h.once c)
      · exact (hlight _ hin).elim
  · exact (hshifts.proceeds c hc).1

theorem proceeds_move (h : o.InTurn) {popped rest added : List Job}
    (hshifts : o.Shifts o' popped rest added) : ¬Behind o'.queue (.proceed c) (.proceed c) := by
  intro hbehind
  rw [hshifts.behind] at hbehind
  rcases hbehind.append with hbehind | ⟨hc, hc'⟩ | hbehind
  · exact h.once c (hshifts.before ▸ hbehind.more popped)
  · obtain ⟨call, cancelled, hcall, hrun⟩ :=
      h.queued c (hshifts.before ▸ List.mem_append_right _ hc)
    exact (hshifts.proceeds c hc').2 call cancelled hcall hrun
  · exact hshifts.once c hbehind

theorem not_idle {s : Sign} (hposted : o.Posted t s) : ¬Idle s := by
  rintro (hreceiving | habsent | ⟨serial, hpaused⟩)
  · rcases hposted with ⟨hrun, -⟩ | ⟨⟨b, hrun⟩, -⟩ | hrun <;> cases hreceiving.symm.trans hrun
  · rcases hposted with ⟨hrun, -⟩ | ⟨⟨b, hrun⟩, -⟩ | hrun <;> cases habsent.symm.trans hrun
  · rcases hposted with ⟨hrun, -⟩ | ⟨⟨b, hrun⟩, -⟩ | hrun <;> cases hpaused.symm.trans hrun

theorem posted_move (h : o.InTurn) (hmove : o.Move o') {popped rest added : List Job}
    (hshifts : o.Shifts o' popped rest added) {s' : Sign} (hs' : o'.signs[t]? = some s')
    (hstray : Stray s') : o'.Posted t s' := by
  have hqueue : ∀ {cancelled}, s'.run = .queued cancelled → .resume t ∈ o.queue →
      .resume t ∈ o'.queue := by
    intro cancelled hrun hmem
    rw [hshifts.before] at hmem
    rw [hshifts.behind]
    rcases List.mem_append.1 hmem with hmem | hmem
    · exact absurd hrun (hshifts.resumed t hmem s' cancelled hs')
    · exact List.mem_append_left _ hmem
  -- The task does as it did, and runs if it ran.
  have hkeep : ∀ {s : Sign}, o.Posted t s → s'.run = s.run →
      (o.running = some t → o'.running = some t) → o'.Posted t s' := by
    intro s hposted hrun hrunning
    rcases hposted with ⟨hactive, hmine⟩ | ⟨⟨b, hb⟩, hmem⟩ | hended
    · exact .inl ⟨hrun.trans hactive, hrunning hmine⟩
    · exact .inr (.inl ⟨⟨b, hrun.trans hb⟩, hqueue (hrun.trans hb) hmem⟩)
    · exact .inr (.inr (hrun.trans hended))
  rcases hmove.sign_cases hs' with ⟨hs, hrunning⟩ | ⟨-, rfl | ⟨rfl, hmem⟩⟩ | ⟨s, hs, halters⟩
  · exact hkeep (h.posted t s' hs hstray) rfl hrunning
  · cases hstray.1
  · exact .inr (.inl ⟨⟨false, rfl⟩, hmem⟩)
  · have hposted := h.posted t s hs (stray_of_becomes halters.becomes hstray)
    cases halters with
    | change hrun hsupervised hwatchers houtside hhungry hsame =>
      exact hkeep hposted hrun fun hmine => hsame.trans hmine
    | halt hgoing hinside hrun => cases hinside.symm.trans hstray.2
    | yield hgoing hinside => cases hinside.symm.trans hstray.2
    | wake hrun cancelled hungry => exact absurd hrun (not_idle hposted)
    | cancelQueued hrun hqueue' =>
      rcases hposted with ⟨hactive, -⟩ | ⟨-, hmem⟩ | hended
      · cases hrun.symm.trans hactive
      · exact .inr (.inl ⟨⟨true, rfl⟩, hqueue' ▸ hmem⟩)
      · cases hrun.symm.trans hended
    | resume hrun hmine => exact .inl ⟨rfl, hmine⟩
    | finish => exact .inr (.inr rfl)
    | watch hcall hwatches hsame => exact hkeep hposted rfl fun hmine => hsame.trans hmine
    | unwatch c hsame => exact hkeep hposted rfl fun hmine => hsame.trans hmine

section
variable (h : o.InTurn) (htold : o.Told) (hmove : o.Move o') {s' : Sign} {call' : Call}
  (hs' : o'.signs[t]? = some s') (hstray : Stray s') (hcall' : o'.calls[c]? = some call')
  (hwatches : call'.watches? = some t)
include h htold hmove hs' hstray hcall' hwatches

theorem waits_in_turn (hgoing : s'.run ≠ .ended) : call'.run ≠ .queued false := by
  intro hrun'
  obtain ⟨s, hs, hbecomes, hstray⟩ := stray_before htold hmove hs' hstray hcall' hwatches
  have hgoing : s.run ≠ .ended := fun hended => hgoing (hbecomes.ended hended)
  rcases hmove.queued_of hcall' hwatches hrun' with
    ⟨call, hcall, hwatches, hrun⟩ | ⟨call, rest, hcall, hwatches, -, hrunning, hqueue, -⟩
  · exact h.waits t s c call hs hstray hcall hwatches hgoing hrun
  · rcases hqueue with hqueue | hqueue
    · obtain ⟨u, ⟨other, hother, hwatches'⟩, hended⟩ := htold.told c (by simp [jobs, hqueue])
      obtain rfl := Option.some.inj (hcall.symm.trans hother)
      obtain rfl := Option.some.inj (hwatches.symm.trans hwatches')
      exact hgoing (hended s hs)
    · -- The window closes only after the task has had its turn.
      rcases h.posted t s hs hstray with ⟨-, hmine⟩ | ⟨-, hmem⟩ | hended
      · cases hrunning.symm.trans hmine
      · rw [hqueue] at hmem
        have hmem : .resume t ∈ rest := by simpa using hmem
        exact h.windows t s c call hs hstray hcall hwatches (hqueue ▸ Behind.head hmem)
      · exact hgoing hended

theorem windows_in_turn {popped rest added : List Job}
    (hshifts : o.Shifts o' popped rest added) : ¬Behind o'.queue (.close c) (.resume t) := by
  intro hbehind
  obtain ⟨s, hs, -, hstray⟩ := stray_before htold hmove hs' hstray hcall' hwatches
  rw [hshifts.behind] at hbehind
  rcases hbehind.append with hbehind | ⟨-, hmem⟩ | hbehind
  · have hbehind : Behind o.queue (.close c) (.resume t) := hshifts.before ▸ hbehind.more popped
    rcases hmove.watches_of htold hcall' hwatches with ⟨call, hcall, hwatches⟩ | ⟨-, hclosed⟩
    · exact h.windows t s c call hs hstray hcall hwatches hbehind
    · refine hclosed (List.mem_filterMap.2 ⟨.close c, ?_, rfl⟩)
      exact List.mem_append_left _ hbehind.mem.1
  · rcases hshifts.resumes t hmem with hle | ⟨other, hother, hinside | hidle⟩
    · have hlt := (List.getElem?_eq_some_iff.1 hs).1
      omega
    · obtain rfl := Option.some.inj (hs.symm.trans hother)
      cases hinside.symm.trans hstray.2
    · obtain rfl := Option.some.inj (hs.symm.trans hother)
      exact not_idle (h.posted t s hs hstray) hidle
  · exact hshifts.closes c t hbehind.mem.1 hbehind.mem.2

theorem exits_in_turn {popped rest added : List Job} (hshifts : o.Shifts o' popped rest added)
    (hrun' : call'.run = .queued false) : ¬Behind o'.queue (.proceed c) (.exited t) := by
  intro hbehind
  obtain ⟨s, hs, -, hstray⟩ := stray_before htold hmove hs' hstray hcall' hwatches
  rcases hmove.queued_of hcall' hwatches hrun' with
    ⟨call, hcall, hwatches, hrun⟩ | ⟨call, rest', hcall, hwatches, hwaiting, -, hqueue, hqueue'⟩
  · -- Whoever ends now still runs, and nobody who waits for that end is on the way out.
    have hrunning : .exited t ∉ added := by
      intro hmem
      obtain ⟨other, hother, hactive⟩ := hshifts.exits t hmem
      obtain rfl := Option.some.inj (hs.symm.trans hother)
      refine h.waits t s c call hs hstray hcall hwatches ?_ hrun
      rw [hactive]
      nofun
    rw [hshifts.behind] at hbehind
    rcases hbehind.append with hbehind | ⟨-, hmem⟩ | hbehind
    · exact h.exits t s c call hs hstray hcall hwatches hrun
        (hshifts.before ▸ hbehind.more popped)
    · exact hrunning hmem
    · exact hrunning hbehind.mem.2
  · rw [hqueue'] at hbehind
    obtain ⟨b, hwaiting⟩ := hwaiting
    rcases hbehind.append with hbehind | ⟨-, hmem⟩ | hbehind
    · have hmem : .proceed c ∈ o.queue := by
        rcases hqueue with hqueue | hqueue <;> rw [hqueue] <;>
          exact List.mem_cons_of_mem _ hbehind.mem.1
      obtain ⟨other, cancelled, hother, hqueued⟩ := h.queued c hmem
      obtain rfl := Option.some.inj (hcall.symm.trans hother)
      cases hwaiting.symm.trans hqueued
    · simp at hmem
    · simpa using hbehind.mem.2

theorem over_in_turn {popped rest added : List Job} (hshifts : o.Shifts o' popped rest added)
    {a : CallAnswer} (hrun' : call'.run = .done (.ok a)) : .exited t ∉ o'.queue := by
  intro hmem
  obtain ⟨s, hs, -, hstray⟩ := stray_before htold hmove hs' hstray hcall' hwatches
  rcases hmove.done_of hcall' hwatches hrun' with
    ⟨call, hcall, hwatches, hrun⟩ |
      ⟨call, rest', added', hcall, hwatches, hrun, hqueue, hqueue', hlight⟩
  · rw [hshifts.behind] at hmem
    rcases List.mem_append.1 hmem with hmem | hmem
    · exact h.settled t s c call a hs hstray hcall hwatches hrun
        (hshifts.before ▸ List.mem_append_right _ hmem)
    · obtain ⟨other, hother, hactive⟩ := hshifts.exits t hmem
      obtain rfl := Option.some.inj (hs.symm.trans hother)
      obtain ⟨hended, -⟩ := htold.settled c call t hcall (target_of_watches hwatches) (.inl ⟨a, hrun⟩)
      cases hactive.symm.trans (hended s hs)
  · rw [hqueue'] at hmem
    rcases List.mem_append.1 hmem with hmem | hmem
    · exact h.exits t s c call hs hstray hcall hwatches hrun (hqueue ▸ Behind.head hmem)
    · exact hlight _ hmem

end

theorem InTurn.move (h : o.InTurn) (htold : o.Told) (hmove : o.Move o') : o'.InTurn := by
  obtain ⟨popped, rest, added, hshifts⟩ := hmove.shifts htold
  exact {
    queued := fun _ => queued_move h hmove hshifts
    once := fun _ => proceeds_move h hshifts
    posted := fun _ _ => posted_move h hmove hshifts
    waits := fun _ _ _ _ => waits_in_turn h htold hmove
    windows := fun _ _ _ _ hs hstray hcall hwatches =>
      windows_in_turn h htold hmove hs hstray hcall hwatches hshifts
    exits := fun _ _ _ _ hs hstray hcall hwatches =>
      exits_in_turn h htold hmove hs hstray hcall hwatches hshifts
    settled := fun _ _ _ _ _ hs hstray hcall hwatches =>
      over_in_turn h htold hmove hs hstray hcall hwatches hshifts }

end Office
end Turnstile
