-- A shutdown makes a call for each task that it stops. It returns when all of these calls have
-- returned, and without a fault only if none of them returned one.
import Turnstile.Proofs.Supervisor.Told

namespace Turnstile

/-- The call of a shutdown that a job tells of an end, and whether a fault was returned. -/
def Job.joined? : Job → Option (Nat × Bool)
  | .joined p failed => some (p, failed)
  | _ => none

def CallRun.result? : CallRun → Option (Except Fault CallAnswer)
  | .done result => some result
  | _ => none

/-- Whether a call has returned a fault. -/
def failed : Except Fault CallAnswer → Bool
  | .ok _ => false
  | .error _ => true

namespace Office

variable {o o' : Office} {t u c d p : Nat} {s : Sign} {call : Call} {j : Job}

/-- The ends of calls that shutdowns are still to be told of. -/
def joined (o : Office) : List (Nat × Bool) := o.queue.filterMap Job.joined?

/-- What a call has returned. -/
def result? (o : Office) (c : Nat) : Option (Except Fault CallAnswer) :=
  o.calls[c]?.bind fun call => call.run.result?

/-! ## What has been returned -/

theorem result_same (hcalls : o'.calls = o.calls) (d : Nat) : o'.result? d = o.result? d := by
  rw [result?, hcalls, result?]

theorem result_append {calls : List Call} (hcalls : o'.calls = o.calls ++ calls) {d : Nat}
    (hd : d < o.calls.length) : o'.result? d = o.result? d := by
  rw [result?, hcalls, List.getElem?_append_left hd, result?]

theorem result_set (hcall : o.calls[c]? = some call) {call₁ : Call}
    (hcalls : o'.calls = o.calls.set c call₁) (hsame : call₁.run.result? = call.run.result?)
    (d : Nat) : o'.result? d = o.result? d := by
  unfold result?
  rw [hcalls]
  by_cases hd : c = d
  · subst hd
    rw [List.getElem?_set_self (List.getElem?_eq_some_iff.1 hcall).1, hcall]
    exact hsame
  · rw [List.getElem?_set_ne hd]

theorem result_queued (hcall : o.calls[c]? = some call) {cancelled : Bool}
    (hrun : call.run = .queued cancelled) : o.result? c = none := by
  rw [result?, hcall]
  simp [hrun, CallRun.result?]

theorem result_settled (hcall : o.calls[c]? = some call) {result : Except Fault CallAnswer}
    (hcalls : o'.calls = o.calls.set c { call with run := .done result }) :
    o'.result? c = some result ∧ ∀ d, d ≠ c → o'.result? d = o.result? d := by
  refine ⟨?_, fun d hd => ?_⟩
  · unfold result?
    rw [hcalls, List.getElem?_set_self (List.getElem?_eq_some_iff.1 hcall).1]
    rfl
  · unfold result?
    rw [hcalls, List.getElem?_set_ne (Ne.symm hd)]

/-! ## What becomes of shutdowns -/

/-- The calls with a shutdown at their head. -/
def family (o : Office) (timeout : Number) (tasks : List Nat) : List Call :=
  ⟨none, .join (List.range' (o.calls.length + 1) tasks.length) tasks.length, .waiting false⟩ ::
    tasks.map (guard o.calls.length timeout)

/-- A call goes on at its stage: it does not come to wait, nor to be on its way out in peace. -/
structure Sways (call call' : Call) : Prop where
  stage : call'.stage = call.stage
  waits : ∀ requested, call'.run = .waiting requested → ∃ r, call.run = .waiting r
  queued : call'.run = .queued false → call.run = .queued false

/-- What becomes of the calls of shutdowns, and of the calls that they made. -/
inductive Joins (o o' : Office) : Prop where
  /-- Nothing is returned, and nobody is told of it. -/
  | rest (hjoined : o'.joined = o.joined)
    (hresults : ∀ c < o.calls.length, o'.result? c = o.result? c)
    (hparents : ∀ (c : Nat) (call' : Call) (p : Nat), o'.calls[c]? = some call' →
      call'.parent = some p → ∃ call, o.calls[c]? = some call ∧ call.parent = some p)
    (hcalls : ∀ (p : Nat) (call' : Call) (children : List Nat) (left : Nat),
      o'.calls[p]? = some call' → call'.stage = .join children left →
      ∃ call, o.calls[p]? = some call ∧ Sways call call')
  | settle {c : Nat} {call : Call} {cancelled : Bool} {result : Except Fault CallAnswer}
    (hcall : o.calls[c]? = some call) (hrun : call.run = .queued cancelled)
    (hok : ∀ a, result = .ok a → cancelled = false)
    (hcalls : o'.calls = o.calls.set c { call with run := .done result })
    (hjoined : o'.joined = o.joined ++ call.parent.toList.map fun p => (p, failed result))
  | drop {p : Nat} {b : Bool} (hjoined : o.joined = (p, b) :: o'.joined)
    (hcalls : o'.calls = o.calls)
    (hmoot : ∀ call children left requested, o.calls[p]? = some call →
      call.stage = .join children left → call.run ≠ .waiting requested)
  | join {p : Nat} {call : Call} {children : List Nat} {left : Nat} {requested : Bool}
    (hcall : o.calls[p]? = some call) (hstage : call.stage = .join children left)
    (hrun : call.run = .waiting requested) (hleft : 1 < left)
    (hjoined : o.joined = (p, false) :: o'.joined)
    (hcalls : o'.calls = o.calls.set p { call with
      stage := .join children (left - 1), run := .waiting requested })
  | joinLast {p : Nat} {call : Call} {children : List Nat} {left : Nat}
    {requested cancelled : Bool} (hcall : o.calls[p]? = some call)
    (hstage : call.stage = .join children left) (hrun : call.run = .waiting requested)
    (hleft : cancelled = true ∨ left ≤ 1) (hjoined : o.joined = (p, cancelled) :: o'.joined)
    (hcalls : o'.calls = o.calls.set p { call with
      stage := .join children (left - 1), run := .queued (requested || cancelled) })
  | shutdown (timeout : Number) (tasks : List Nat)
    (hcalls : o'.calls = o.calls ++ o.family timeout tasks) (hjoined : o'.joined = o.joined)

theorem Sways.refl (call : Call) : Sways call call := ⟨rfl, fun r h => ⟨r, h⟩, id⟩

theorem joins_same (hcalls : o'.calls = o.calls) (hjoined : o'.joined = o.joined) :
    o.Joins o' := by
  refine .rest hjoined (fun c _ => result_same hcalls c) ?_ ?_
  · intro c call' p hcall' hparent
    exact ⟨call', hcalls ▸ hcall', hparent⟩
  · intro p call' children left hcall' _
    exact ⟨call', hcalls ▸ hcall', .refl call'⟩

/-- A call that has not returned goes on. -/
theorem joins_set (hcall : o.calls[c]? = some call) {call₁ : Call}
    (hcalls : o'.calls = o.calls.set c call₁) (hjoined : o'.joined = o.joined)
    (hundone : call.run.result? = none) (hundone' : call₁.run.result? = none)
    (hparent : call₁.parent = call.parent)
    (hsways : ∀ children left, call₁.stage = .join children left → Sways call call₁) :
    o.Joins o' := by
  have hresult := result_set hcall hcalls (hundone'.trans hundone.symm)
  refine .rest hjoined (fun d _ => hresult d) ?_ ?_
  · intro d call' p hcall' hparent'
    rw [hcalls] at hcall'
    rcases set_cases hcall' with ⟨rfl, rfl⟩ | ⟨-, hcall'⟩
    · exact ⟨call, hcall, hparent.symm.trans hparent'⟩
    · exact ⟨call', hcall', hparent'⟩
  · intro d call' children left hcall' hstage
    rw [hcalls] at hcall'
    rcases set_cases hcall' with ⟨rfl, rfl⟩ | ⟨-, hcall'⟩
    · exact ⟨call, hcall, hsways children left hstage⟩
    · exact ⟨call', hcall', .refl call'⟩

theorem Comes.alone (hcomes : o.Comes call) :
    call.parent = none ∧ ∀ children left, call.stage ≠ .join children left := by
  cases hcomes <;> exact ⟨rfl, nofun⟩

theorem Plain.joined (hplain : Plain j) : j.joined? = none := by
  cases j <;> first | rfl | exact hplain.elim

theorem Move.joins (h : o.Told) (hmove : o.Move o') : o.Joins o' := by
  cases hmove with
  | call hcomes =>
    obtain ⟨hparent, hstage⟩ := hcomes.alone
    refine .rest rfl (fun c hc => result_append rfl hc) ?_ ?_
    · intro c call' p hcall' hparent'
      rcases append_cases hcall' with hcall | ⟨-, hmem⟩
      · exact ⟨call', hcall, hparent'⟩
      · obtain rfl := List.mem_singleton.1 hmem
        cases hparent.symm.trans hparent'
    · intro p call' children left hcall' hstage'
      rcases append_cases hcall' with hcall | ⟨-, hmem⟩
      · exact ⟨call', hcall, .refl call'⟩
      · obtain rfl := List.mem_singleton.1 hmem
        exact absurd hstage' (hstage children left)
  | shutdown timeout htasks =>
    refine .shutdown timeout _ rfl ?_
    simp [Office.joined, List.filterMap_map, Function.comp_def, Job.joined?]
  | openWindow hcall hstage hrun hperm =>
    rename_i call _ _ rest
    refine joins_set hcall rfl ?_ ?_ rfl rfl fun _ _ h => by cases h
    · show rest.filterMap Job.joined? = _
      rcases hrun with ⟨-, rfl⟩ | ⟨-, -, hqueue⟩
      · rfl
      · simp [Office.joined, hqueue, List.filterMap_cons, Job.joined?]
    · rcases hrun with ⟨⟨cancelled, hrun⟩, -⟩ | ⟨hrun, -⟩ <;> rw [hrun] <;> rfl
  | release hcall hrun hrunning hqueue =>
    rename_i c call cancelled rest
    refine joins_set hcall rfl ?_ (by rw [hrun]; rfl) rfl rfl ?_
    · rcases hqueue with hqueue | hqueue <;>
        simp [Office.joined, hqueue, List.filterMap_cons, Job.joined?]
    · -- A shutdown is told of no end of a task, and has no window.
      intro children left hstage
      have hnone : ∀ t, ¬o.Watches c t := by
        rintro t ⟨other, hother, hwatches⟩
        obtain rfl := Option.some.inj (hcall.symm.trans hother)
        simp [Call.watches?, show call.stage = .join children left from hstage] at hwatches
      rcases hqueue with hqueue | hqueue
      · obtain ⟨t, hwatches, -⟩ := h.told c (by simp [jobs, hqueue])
        exact absurd hwatches (hnone t)
      · obtain ⟨other, t, timeout, hother, hwindow, -⟩ := h.closes c (by
          simp [Office.closes, jobs, hqueue, Job.close?])
        refine absurd ⟨other, hother, ?_⟩ (hnone t)
        simp [Call.watches?, hwindow]
  | force hcall hstage hrun hrunning hqueue hgoing =>
    refine joins_set hcall rfl ?_ (by rw [hrun]; rfl) rfl rfl fun _ _ h => by cases h
    simp [Office.joined, hqueue, List.filterMap_cons, Job.joined?]
  | callOff hcall hrun =>
    refine joins_set hcall rfl ?_ (by rw [hrun]; rfl) rfl rfl fun _ _ _ => ⟨rfl, by simp, by simp⟩
    simp [Office.joined, Office.push, setCall, List.filterMap_cons, Job.joined?]
  | callOffQueued hcall hrun =>
    exact joins_set hcall rfl rfl (by rw [hrun]; rfl) rfl rfl fun _ _ _ => ⟨rfl, by simp, by simp⟩
  | callOffLater hcall hrun =>
    exact joins_set hcall rfl rfl (by rw [hrun]; rfl) rfl rfl fun _ _ _ =>
      ⟨rfl, fun _ _ => ⟨_, hrun⟩, by simp⟩
  | reply hcall hstage hrun result =>
    refine joins_set hcall rfl ?_ (by rw [hrun]; rfl) rfl rfl fun _ _ h => by cases h
    simp [Office.joined, Office.push, setCall, List.filterMap_cons, Job.joined?]
  | settle hcall hrun hrunning hqueue hok =>
    rename_i c call cancelled rest result
    refine .settle hcall hrun (fun a ha => (hok a ha).1) rfl ?_
    cases hparent : call.parent <;> cases result <;>
      simp [Office.joined, hqueue, report, hparent, List.filterMap_cons, Job.joined?, failed]
  | join hcall hstage hrun hrunning hqueue hleft =>
    obtain ⟨rfl, hleft⟩ := hleft
    refine .join hcall hstage hrun hleft ?_ rfl
    simp [Office.joined, hqueue, Job.joined?]
  | joinLast hcall hstage hrun hrunning hqueue hleft =>
    refine .joinLast hcall hstage hrun hleft ?_ rfl
    simp [Office.joined, hqueue, Job.joined?]
  | drop hqueue hmoot =>
    rename_i j rest
    cases hj : j.joined? with
    | none =>
      refine joins_same rfl ?_
      simp [Office.joined, hqueue, hj]
    | some pb =>
      obtain ⟨p, b, rfl⟩ : ∃ p b, j = .joined p b := by
        cases j <;> simp [Job.joined?] at hj ⊢
      refine .drop (b := b) ?_ rfl hmoot
      simp [Office.joined, hqueue, Job.joined?]
  | turn hperm =>
    rename_i due rest
    have hdue : due.filterMap Job.joined? = [] := by
      rw [List.filterMap_eq_nil_iff]
      intro j hj
      rcases h.timers j (hperm.mem_iff.2 (List.mem_append_left _ hj)) with hplain | ⟨c, rfl⟩
      · exact hplain.joined
      · rfl
    refine joins_same rfl ?_
    simp [Office.joined, hdue]
  | finish hs hrun hrunning =>
    rename_i s
    refine joins_same rfl ?_
    cases s.supervised <;>
      simp [Office.joined, List.filterMap_cons, List.filterMap_map, Function.comp_def, Job.joined?]
  | push hplain =>
    refine joins_same rfl ?_
    simp [Office.joined, Office.push, hplain.joined]
  | _ =>
    refine joins_same rfl ?_
    simp [Office.joined, Office.push, setSign, List.filterMap_cons, Job.joined?, *]

/-! ## Parents and children -/

theorem family_cases {timeout : Number} {tasks : List Nat} {k : Nat}
    (h : (o.family timeout tasks)[k]? = some call) :
    k = 0 ∧ call = ⟨none, .join (List.range' (o.calls.length + 1) tasks.length) tasks.length,
      .waiting false⟩ ∨
    ∃ i t, k = i + 1 ∧ i < tasks.length ∧ call = guard o.calls.length timeout t := by
  cases k with
  | zero => exact .inl ⟨rfl, (Option.some.inj h).symm⟩
  | succ i =>
    have h' : (tasks.map (guard o.calls.length timeout))[i]? = some call := h
    rw [List.getElem?_map] at h'
    obtain ⟨t, ht, rfl⟩ := Option.map_eq_some_iff.1 h'
    exact .inr ⟨i, t, rfl, (List.getElem?_eq_some_iff.1 ht).1, rfl⟩

theorem family_head (timeout : Number) (tasks : List Nat) :
    (o.calls ++ o.family timeout tasks)[o.calls.length]? = some ⟨none,
      .join (List.range' (o.calls.length + 1) tasks.length) tasks.length, .waiting false⟩ := by
  rw [List.getElem?_append_right (Nat.le_refl _), Nat.sub_self]
  rfl

theorem family_guard (timeout : Number) {tasks : List Nat} {i : Nat} (hi : i < tasks.length) :
    (o.calls ++ o.family timeout tasks)[o.calls.length + 1 + i]? =
      some (guard o.calls.length timeout tasks[i]) := by
  rw [List.getElem?_append_right (by omega), Nat.add_assoc, Nat.add_sub_cancel_left, Nat.add_comm]
  show (tasks.map (guard o.calls.length timeout))[i]? = _
  rw [List.getElem?_map, List.getElem?_eq_getElem hi]
  rfl

/-- A call that comes by itself is no shutdown, and was made by none. -/
theorem Joins.newcomer (hjoins : o.Joins o') (hle : o.calls.length ≤ c) {call' : Call}
    (hcall' : o'.calls[c]? = some call') :
    (call'.parent = none ∧ ∀ children left, call'.stage ≠ .join children left) ∨
    ∃ timeout tasks, o'.calls = o.calls ++ o.family timeout tasks ∧
      (o.family timeout tasks)[c - o.calls.length]? = some call' := by
  have hold : ∀ {call : Call}, o.calls[c]? ≠ some call := by
    intro call hcall
    have hlt := (List.getElem?_eq_some_iff.1 hcall).1
    omega
  have hset : ∀ {p : Nat} {call₁ : Call}, o'.calls ≠ o.calls.set p call₁ := by
    intro p call₁ hcalls
    rw [hcalls] at hcall'
    have hlt := (List.getElem?_eq_some_iff.1 hcall').1
    rw [List.length_set] at hlt
    omega
  cases hjoins with
  | rest hjoined hresults hparents hcalls =>
    refine .inl ⟨?_, ?_⟩
    · cases hparent : call'.parent with
      | none => rfl
      | some p =>
        obtain ⟨call, hcall, -⟩ := hparents c call' p hcall' hparent
        exact absurd hcall hold
    · intro children left hstage
      obtain ⟨call, hcall, -⟩ := hcalls c call' children left hcall' hstage
      exact hold hcall
  | settle hcall hrun hok hcalls hjoined => exact absurd hcalls hset
  | drop hjoined hcalls hmoot => exact absurd (hcalls ▸ hcall') hold
  | join hcall hstage hrun hleft hjoined hcalls => exact absurd hcalls hset
  | joinLast hcall hstage hrun hleft hjoined hcalls => exact absurd hcalls hset
  | shutdown timeout tasks hcalls hjoined =>
    refine .inr ⟨timeout, tasks, hcalls, ?_⟩
    rwa [hcalls, List.getElem?_append_right hle] at hcall'

/-- What a shutdown still waits for: the calls that have not returned, and the ends of which it is
still to be told. -/
def due (o : Office) (p : Nat) (children : List Nat) : Nat :=
  children.countP (fun c => (o.result? c).isNone) + o.joined.countP (fun e => e.1 == p)

/-- What is true at any time of shutdowns and the calls that they made. -/
structure Joint (o : Office) : Prop where
  parents : ∀ (c : Nat) (call : Call) (p : Nat), o.calls[c]? = some call → call.parent = some p →
    ∃ pc children left, o.calls[p]? = some pc ∧ pc.stage = .join children left ∧ c ∈ children
  children : ∀ (p : Nat) (pc : Call) (children : List Nat) (left : Nat), o.calls[p]? = some pc →
    pc.stage = .join children left → children.Nodup ∧
    ∀ c ∈ children, ∃ call, o.calls[c]? = some call ∧ call.parent = some p
  told : ∀ e ∈ o.joined, e.1 < o.calls.length
  waits : ∀ (p : Nat) (pc : Call) (children : List Nat) (left : Nat) (requested : Bool),
    o.calls[p]? = some pc → pc.stage = .join children left → pc.run = .waiting requested →
    o.due p children ≤ left ∧
    ∀ c ∈ children, ∀ fault, o.result? c = some (.error fault) → (p, true) ∈ o.joined
  settled : ∀ (p : Nat) (pc : Call) (children : List Nat) (left : Nat), o.calls[p]? = some pc →
    pc.stage = .join children left → (pc.run = .queued false ∨ ∃ a, pc.run = .done (.ok a)) →
    ∀ c ∈ children, ∃ a, o.result? c = some (.ok a)

theorem parents_move (h : o.Joint) (hmove : o.Move o') (hjoins : o.Joins o') {call' : Call}
    (hcall' : o'.calls[c]? = some call') (hparent : call'.parent = some p) :
    ∃ pc children left, o'.calls[p]? = some pc ∧ pc.stage = .join children left ∧
      c ∈ children := by
  rcases hmove.call_of hcall' with ⟨call, hcall, hbecomes⟩ | ⟨hle, -⟩
  · obtain ⟨pc, children, left, hpc, hstage, hmem⟩ :=
      h.parents c call p hcall (hbecomes.parent ▸ hparent)
    obtain ⟨pc', hpc', hbecomes'⟩ := hmove.keeps_call hpc
    obtain ⟨left', hstage'⟩ := (hbecomes'.children children).2 ⟨left, hstage⟩
    exact ⟨pc', children, left', hpc', hstage', hmem⟩
  · rcases hjoins.newcomer hle hcall' with ⟨hnone, -⟩ | ⟨timeout, tasks, hcalls, hfamily⟩
    · cases hnone.symm.trans hparent
    · rcases family_cases hfamily with ⟨-, rfl⟩ | ⟨i, t, hi, hlt, rfl⟩
      · cases hparent
      · obtain rfl := Option.some.inj hparent
        refine ⟨⟨none, .join (List.range' (o.calls.length + 1) tasks.length) tasks.length,
          .waiting false⟩, _, _, ?_, rfl, ?_⟩
        · rw [hcalls, List.getElem?_append_right (Nat.le_refl _), Nat.sub_self]
          rfl
        · rw [List.mem_range'_1]
          omega

theorem children_move (h : o.Joint) (hmove : o.Move o') (hjoins : o.Joins o') {pc' : Call}
    {children : List Nat} {left : Nat} (hpc' : o'.calls[p]? = some pc')
    (hstage' : pc'.stage = .join children left) : children.Nodup ∧
    ∀ c ∈ children, ∃ call, o'.calls[c]? = some call ∧ call.parent = some p := by
  rcases hmove.call_of hpc' with ⟨pc, hpc, hbecomes⟩ | ⟨hle, -⟩
  · obtain ⟨left', hstage⟩ := (hbecomes.children children).1 ⟨left, hstage'⟩
    obtain ⟨hnodup, hthere⟩ := h.children p pc children left' hpc hstage
    refine ⟨hnodup, fun c hc => ?_⟩
    obtain ⟨call, hcall, hparent⟩ := hthere c hc
    obtain ⟨call', hcall', hbecomes'⟩ := hmove.keeps_call hcall
    exact ⟨call', hcall', hbecomes'.parent.trans hparent⟩
  · rcases hjoins.newcomer hle hpc' with ⟨-, hnot⟩ | ⟨timeout, tasks, hcalls, hfamily⟩
    · exact absurd hstage' (hnot children left)
    · rcases family_cases hfamily with ⟨hp, rfl⟩ | ⟨i, t, -, -, rfl⟩
      · obtain ⟨rfl, rfl⟩ := Stage.join.inj hstage'
        refine ⟨List.nodup_range', fun c hc => ?_⟩
        obtain ⟨i, hi, rfl⟩ := List.mem_range'.1 hc
        have hhere : p = o.calls.length := by omega
        refine ⟨guard o.calls.length timeout tasks[i], ?_, by rw [hhere]; rfl⟩
        rw [hcalls, Nat.one_mul]
        exact family_guard timeout hi
      · cases hstage'

theorem joined_move (h : o.Joint) (hmove : o.Move o') (hjoins : o.Joins o') {e : Nat × Bool}
    (he : e ∈ o'.joined) : e.1 < o'.calls.length := by
  have hold : e ∈ o.joined → e.1 < o'.calls.length := fun he =>
    Nat.lt_of_lt_of_le (h.told e he) hmove.grow.2
  cases hjoins with
  | rest hjoined hresults hparents hcalls => exact hold (hjoined ▸ he)
  | settle hcall hrun hok hcalls hjoined =>
    rw [hjoined] at he
    rcases List.mem_append.1 he with he | he
    · exact hold he
    · obtain ⟨p, hp, rfl⟩ := List.mem_map.1 he
      obtain ⟨pc, -, -, hpc, -⟩ := h.parents _ _ p hcall (Option.mem_toList.1 hp)
      exact Nat.lt_of_lt_of_le (List.getElem?_eq_some_iff.1 hpc).1 hmove.grow.2
  | drop hjoined hcalls hmoot => exact hold (hjoined ▸ List.mem_cons_of_mem _ he)
  | join hcall hstage hrun hleft hjoined hcalls => exact hold (hjoined ▸ List.mem_cons_of_mem _ he)
  | joinLast hcall hstage hrun hleft hjoined hcalls =>
    exact hold (hjoined ▸ List.mem_cons_of_mem _ he)
  | shutdown timeout tasks hcalls hjoined => exact hold (hjoined ▸ he)

/-! ## Waiting for children -/

theorem due_congr (hjoined : o'.joined.countP (fun e => e.1 == p) =
    o.joined.countP (fun e => e.1 == p)) {children : List Nat}
    (hresults : ∀ c ∈ children, o'.result? c = o.result? c) :
    o'.due p children = o.due p children := by
  unfold due
  rw [hjoined, List.countP_congr fun c hc => by rw [hresults c hc]]

/-- One of them returns. -/
theorem countP_flip {l : List Nat} (hnodup : l.Nodup) {f g : Nat → Bool} (hc : c ∈ l)
    (hf : f c = true) (hg : g c = false) (hsame : ∀ d, d ≠ c → g d = f d) :
    l.countP g + 1 = l.countP f := by
  have hperm := List.perm_cons_erase hc
  rw [hperm.countP_eq g, hperm.countP_eq f, List.countP_cons, List.countP_cons, hf, hg]
  have hrest : (l.erase c).countP g = (l.erase c).countP f :=
    List.countP_congr fun d hd => by rw [hsame d (hnodup.mem_erase_iff.1 hd).1]
  simp [hrest]

theorem result_guard {timeout : Number} {tasks : List Nat}
    (hcalls : o'.calls = o.calls ++ o.family timeout tasks)
    (hc : c ∈ List.range' (o.calls.length + 1) tasks.length) : o'.result? c = none := by
  obtain ⟨i, hi, rfl⟩ := List.mem_range'.1 hc
  rw [result?, hcalls, Nat.one_mul, family_guard timeout hi]
  rfl

theorem Joint.child_lt (h : o.Joint) {pc : Call} {children : List Nat} {left : Nat}
    (hpc : o.calls[p]? = some pc) (hstage : pc.stage = .join children left) (hc : c ∈ children) :
    c < o.calls.length := by
  obtain ⟨call, hcall, -⟩ := (h.children p pc children left hpc hstage).2 c hc
  exact (List.getElem?_eq_some_iff.1 hcall).1

theorem due_of_settle (h : o.Joint) {d : Nat} {call pc : Call} {cancelled : Bool}
    {result : Except Fault CallAnswer} {children : List Nat} {left : Nat}
    (hcall : o.calls[d]? = some call) (hrun : call.run = .queued cancelled)
    (hcalls : o'.calls = o.calls.set d { call with run := .done result })
    (hjoined : o'.joined = o.joined ++ call.parent.toList.map fun p => (p, failed result))
    (hpc : o.calls[p]? = some pc) (hstage : pc.stage = .join children left) :
    o'.due p children = o.due p children := by
  obtain ⟨hself, hother⟩ := result_settled hcall hcalls
  by_cases hd : d ∈ children
  · obtain ⟨hnodup, hthere⟩ := h.children p pc children left hpc hstage
    obtain ⟨call', hcall', hparent⟩ := hthere d hd
    obtain rfl := Option.some.inj (hcall.symm.trans hcall')
    have hnone := result_queued hcall hrun
    -- One call fewer has not returned, and one end more is to be told.
    have hflip := countP_flip hnodup (f := fun c => (o.result? c).isNone)
      (g := fun c => (o'.result? c).isNone) hd (by rw [hnone]; rfl) (by rw [hself]; rfl)
      fun e he => by rw [hother e he]
    have hmore : o'.joined.countP (fun e => e.1 == p) =
        o.joined.countP (fun e => e.1 == p) + 1 := by
      rw [hjoined, hparent]
      simp
    unfold due
    omega
  · have hstranger : call.parent ≠ some p := by
      intro hparent
      obtain ⟨pc₁, children₁, left₁, hpc₁, hstage₁, hmem⟩ := h.parents d call p hcall hparent
      obtain rfl := Option.some.inj (hpc.symm.trans hpc₁)
      obtain ⟨rfl, -⟩ := Stage.join.inj (hstage.symm.trans hstage₁)
      exact hd hmem
    refine due_congr ?_ fun c hc => hother c fun hcd => hd (hcd ▸ hc)
    rw [hjoined]
    cases hparent : call.parent with
    | none => simp
    | some q =>
      have hqp : q ≠ p := fun hqp => hstranger (hparent.trans (by rw [hqp]))
      simp [hqp]

/-- A shutdown that has just come has all its calls before it. -/
theorem due_of_family (h : o.Joint) {timeout : Number} {tasks : List Nat}
    (hcalls : o'.calls = o.calls ++ o.family timeout tasks) (hjoined : o'.joined = o.joined) :
    o'.due o.calls.length (List.range' (o.calls.length + 1) tasks.length) = tasks.length := by
  have hguards : ∀ c ∈ List.range' (o.calls.length + 1) tasks.length,
      (o'.result? c).isNone = true := by
    intro c hc
    rw [result_guard hcalls hc]
    rfl
  have hnobody : o'.joined.countP (fun e => e.1 == o.calls.length) = 0 := by
    rw [hjoined, List.countP_eq_zero]
    intro e he hep
    have hlt := h.told e he
    have hep : e.1 = o.calls.length := by simpa using hep
    omega
  rw [due, hnobody, List.countP_eq_length.2 hguards, List.length_range', Nat.add_zero]

theorem due_of_told {b : Bool} (hjoined : o.joined = (p, b) :: o'.joined)
    (hresults : ∀ c, o'.result? c = o.result? c) {children : List Nat} :
    o.due p children = o'.due p children + 1 := by
  unfold due
  simp only [hjoined, hresults, List.countP_cons, beq_self_eq_true, if_true]
  omega

/-- A shutdown that waits, and how it came to wait as it does. -/
inductive Waited (o o' : Office) (p : Nat) (children : List Nat) (left : Nat) : Prop where
  /-- As much is due to it as was before. -/
  | still {pc : Call} {requested : Bool} (hpc : o.calls[p]? = some pc)
    (hstage : pc.stage = .join children left) (hrun : pc.run = .waiting requested)
    (hdue : o'.due p children = o.due p children)
    (htold : (p, true) ∈ o.joined → (p, true) ∈ o'.joined)
    (hresults : ∀ c ∈ children, ∀ fault, o'.result? c = some (.error fault) →
      o.result? c = some (.error fault) ∨ (p, true) ∈ o'.joined)
  /-- It was told of an end, and others are due to it. -/
  | told {pc : Call} {requested : Bool} (hpc : o.calls[p]? = some pc)
    (hstage : pc.stage = .join children (left + 1)) (hrun : pc.run = .waiting requested)
    (hleft : 0 < left) (hjoined : o.joined = (p, false) :: o'.joined)
    (hresults : ∀ c, o'.result? c = o.result? c)
  /-- It has just come. -/
  | fresh (hdue : o'.due p children = left) (hleft : children.length = left)
    (hresults : ∀ c ∈ children, o'.result? c = none)

/-- Nothing that the shutdown was to be told of comes or goes. -/
theorem Waited.same {pc : Call} {children : List Nat} {left : Nat} {requested : Bool}
    (hpc : o.calls[p]? = some pc) (hstage : pc.stage = .join children left)
    (hrun : pc.run = .waiting requested) (hjoined : o'.joined = o.joined)
    (hresults : ∀ c ∈ children, o'.result? c = o.result? c) : o.Waited o' p children left :=
  .still hpc hstage hrun (due_congr (by rw [hjoined]) hresults) (fun hmem => hjoined ▸ hmem)
    fun c hc _ hfault => .inl ((hresults c hc).symm.trans hfault)

/-- Another shutdown is told of an end. -/
theorem Waited.other {q : Nat} {b : Bool} {pc : Call} {children : List Nat} {left : Nat}
    {requested : Bool} (hpc : o.calls[p]? = some pc) (hstage : pc.stage = .join children left)
    (hrun : pc.run = .waiting requested) (hqp : q ≠ p) (hjoined : o.joined = (q, b) :: o'.joined)
    (hresults : ∀ c, o'.result? c = o.result? c) : o.Waited o' p children left := by
  refine .still hpc hstage hrun (due_congr (by simp [hjoined, hqp]) fun c _ => hresults c) ?_
    fun c _ _ hfault => .inl ((hresults c).symm.trans hfault)
  intro hmem
  rw [hjoined] at hmem
  rcases List.mem_cons.1 hmem with heq | hmem
  · exact absurd (Prod.mk.inj heq).1.symm hqp
  · exact hmem

/-- A call returns, one that the shutdown made or another. -/
theorem Waited.settle (h : o.Joint) {d : Nat} {call pc : Call} {cancelled requested : Bool}
    {result : Except Fault CallAnswer} {children : List Nat} {left : Nat}
    (hcall : o.calls[d]? = some call) (hqueued : call.run = .queued cancelled)
    (hcalls : o'.calls = o.calls.set d { call with run := .done result })
    (hjoined : o'.joined = o.joined ++ call.parent.toList.map fun p => (p, failed result))
    (hpc : o.calls[p]? = some pc) (hstage : pc.stage = .join children left)
    (hrun : pc.run = .waiting requested) : o.Waited o' p children left := by
  obtain ⟨hself, hother⟩ := result_settled hcall hcalls
  refine .still hpc hstage hrun (due_of_settle h hcall hqueued hcalls hjoined hpc hstage)
    (fun hmem => hjoined ▸ List.mem_append_left _ hmem) fun c hc fault hfault => ?_
  by_cases hcd : c = d
  · subst hcd
    obtain ⟨call', hcall', hparent⟩ := (h.children p pc children left hpc hstage).2 c hc
    obtain rfl := Option.some.inj (hcall.symm.trans hcall')
    obtain rfl := Option.some.inj (hself.symm.trans hfault)
    refine .inr ?_
    rw [hjoined, hparent]
    simp [failed]
  · exact .inl ((hother c hcd).symm.trans hfault)

theorem Joins.waited (h : o.Joint) (hjoins : o.Joins o') {pc' : Call} {children : List Nat}
    {left : Nat} {requested : Bool} (hpc' : o'.calls[p]? = some pc')
    (hstage' : pc'.stage = .join children left) (hrun' : pc'.run = .waiting requested) :
    o.Waited o' p children left := by
  cases hjoins with
  | rest hjoined hresults hparents hcalls =>
    obtain ⟨pc, hpc, hsways⟩ := hcalls p pc' children left hpc' hstage'
    have hstage := hsways.stage.symm.trans hstage'
    obtain ⟨r, hrun⟩ := hsways.waits requested hrun'
    exact .same hpc hstage hrun hjoined fun c hc => hresults c (h.child_lt hpc hstage hc)
  | settle hcall hrun hok hcalls hjoined =>
    have hpc := hpc'
    rw [hcalls] at hpc
    rcases set_cases hpc with ⟨-, rfl⟩ | ⟨-, hpc⟩
    · cases hrun'
    · exact .settle h hcall hrun hcalls hjoined hpc hstage' hrun'
  | drop hjoined hcalls hmoot =>
    have hpc : o.calls[p]? = some pc' := hcalls ▸ hpc'
    refine .other hpc hstage' hrun' ?_ hjoined (result_same hcalls)
    rintro rfl
    exact hmoot pc' children left requested hpc hstage' hrun'
  | @join q call children₀ left₀ requested₀ hcall hstage hrun hleft hjoined hcalls =>
    have hresults := result_set hcall hcalls (by rw [hrun])
    have hpc := hpc'
    rw [hcalls] at hpc
    rcases set_cases hpc with ⟨rfl, rfl⟩ | ⟨hqp, hpc⟩
    · obtain ⟨rfl, rfl⟩ := Stage.join.inj hstage'
      have hbefore : call.stage = .join children₀ (left₀ - 1 + 1) := by
        rw [hstage, Nat.sub_add_cancel (by omega)]
      exact .told hcall hbefore hrun (by omega) hjoined hresults
    · exact .other hpc hstage' hrun' (Ne.symm hqp) hjoined hresults
  | joinLast hcall hstage hrun hleft hjoined hcalls =>
    have hpc := hpc'
    rw [hcalls] at hpc
    rcases set_cases hpc with ⟨-, rfl⟩ | ⟨hqp, hpc⟩
    · cases hrun'
    · have hresults := result_set hcall hcalls (by rw [hrun]; rfl)
      exact .other hpc hstage' hrun' (Ne.symm hqp) hjoined hresults
  | shutdown timeout tasks hcalls hjoined =>
    rw [hcalls] at hpc'
    rcases append_cases hpc' with hpc | ⟨hle, -⟩
    · exact .same hpc hstage' hrun' hjoined fun c hc =>
        result_append hcalls (h.child_lt hpc hstage' hc)
    · rw [List.getElem?_append_right hle] at hpc'
      rcases family_cases hpc' with ⟨hzero, rfl⟩ | ⟨i, t, -, -, rfl⟩
      · obtain ⟨rfl, rfl⟩ := Stage.join.inj hstage'
        obtain rfl : p = o.calls.length := by omega
        exact .fresh (due_of_family h hcalls hjoined) List.length_range'
          fun c hc => result_guard hcalls hc
      · cases hstage'

theorem waits_move (h : o.Joint) (hjoins : o.Joins o') {pc' : Call} {children : List Nat}
    {left : Nat} {requested : Bool} (hpc' : o'.calls[p]? = some pc')
    (hstage' : pc'.stage = .join children left) (hrun' : pc'.run = .waiting requested) :
    o'.due p children ≤ left ∧
      ∀ c ∈ children, ∀ fault, o'.result? c = some (.error fault) → (p, true) ∈ o'.joined := by
  cases hjoins.waited h hpc' hstage' hrun' with
  | still hpc hstage hrun hsame htold hresults =>
    obtain ⟨hdue, hfailed⟩ := h.waits p _ children left _ hpc hstage hrun
    refine ⟨hsame ▸ hdue, fun c hc fault hfault => ?_⟩
    rcases hresults c hc fault hfault with hfault | hmem
    · exact htold (hfailed c hc fault hfault)
    · exact hmem
  | told hpc hstage hrun hleft hjoined hresults =>
    obtain ⟨hdue, hfailed⟩ := h.waits p _ children _ _ hpc hstage hrun
    refine ⟨?_, fun c hc fault hfault => ?_⟩
    · rw [due_of_told hjoined hresults] at hdue
      omega
    · have hmem := hfailed c hc fault ((hresults c).symm.trans hfault)
      rw [hjoined] at hmem
      simpa using hmem
  | fresh hdue hleft hresults =>
    refine ⟨Nat.le_of_eq hdue, fun c hc fault hfault => ?_⟩
    cases (hresults c hc).symm.trans hfault

/-! ## All children returned -/

/-- What was returned to a shutdown that was through stays as it is. -/
theorem Joint.still_settled (h : o.Joint) {pc : Call} {children : List Nat} {left : Nat}
    (hpc : o.calls[p]? = some pc) (hstage : pc.stage = .join children left)
    (hover : pc.run = .queued false ∨ ∃ a, pc.run = .done (.ok a))
    (hresults : ∀ c < o.calls.length, (o.result? c).isSome → o'.result? c = o.result? c) :
    ∀ c ∈ children, ∃ a, o'.result? c = some (.ok a) := by
  intro c hc
  obtain ⟨a, ha⟩ := h.settled p pc children left hpc hstage hover c hc
  exact ⟨a, (hresults c (h.child_lt hpc hstage hc) (by rw [ha]; rfl)).trans ha⟩

/-- When a shutdown is told of the last end that was due, and of no fault, all its calls have
returned, and none of them a fault. -/
theorem Joint.settled_of_last (h : o.Joint) {pc : Call} {children : List Nat} {left : Nat}
    {requested : Bool} (hpc : o.calls[p]? = some pc) (hstage : pc.stage = .join children left)
    (hrun : pc.run = .waiting requested) (hleft : left ≤ 1)
    (hjoined : o.joined = (p, false) :: o'.joined) (hresults : ∀ c, o'.result? c = o.result? c) :
    ∀ c ∈ children, ∃ a, o'.result? c = some (.ok a) := by
  obtain ⟨hdue, hfailed⟩ := h.waits p pc children left requested hpc hstage hrun
  have hnothing : o'.due p children = 0 := by
    rw [due_of_told hjoined hresults] at hdue
    omega
  obtain ⟨hreturned, hnobody⟩ := Nat.add_eq_zero_iff.1 hnothing
  rw [List.countP_eq_zero] at hreturned hnobody
  intro c hc
  cases hresult : o'.result? c with
  | none => exact absurd (by rw [hresult]; rfl) (hreturned c hc)
  | some result =>
    cases result with
    | ok a => exact ⟨a, rfl⟩
    | error fault =>
      have hmem := hfailed c hc fault ((hresults c).symm.trans hresult)
      rw [hjoined] at hmem
      exact absurd (beq_self_eq_true p) (hnobody (p, true) (by simpa using hmem))

/-- A call that goes on at its stage was on its way out in peace before, if it is now. -/
theorem Sways.over {call' : Call} (hsways : Sways call call') (hcall : o.calls[p]? = some call)
    (hcall' : o'.calls[p]? = some call') (hresult : o'.result? p = o.result? p)
    (hover : call'.run = .queued false ∨ ∃ a, call'.run = .done (.ok a)) :
    call.run = .queued false ∨ ∃ a, call.run = .done (.ok a) := by
  rcases hover with hqueued | ⟨a, hdone⟩
  · exact .inl (hsways.queued hqueued)
  · rw [result?, result?, hcall, hcall'] at hresult
    cases hrun : call.run with
    | done result =>
      simp [hrun, hdone, CallRun.result?] at hresult
      exact .inr ⟨a, by rw [hresult]⟩
    | _ => simp [hrun, hdone, CallRun.result?] at hresult

theorem over_joined (h : o.Joint) (hjoins : o.Joins o') {pc' : Call} {children : List Nat}
    {left : Nat} (hpc' : o'.calls[p]? = some pc') (hstage' : pc'.stage = .join children left)
    (hover : pc'.run = .queued false ∨ ∃ a, pc'.run = .done (.ok a)) :
    ∀ c ∈ children, ∃ a, o'.result? c = some (.ok a) := by
  cases hjoins with
  | rest hjoined hresults hparents hcalls =>
    obtain ⟨pc, hpc, hsways⟩ := hcalls p pc' children left hpc' hstage'
    have hresult := hresults p (List.getElem?_eq_some_iff.1 hpc).1
    exact h.still_settled hpc (hsways.stage.symm.trans hstage')
      (hsways.over hpc hpc' hresult hover) fun c hc _ => hresults c hc
  | @settle d call cancelled result hcall hrun hok hcalls hjoined =>
    obtain ⟨-, hother⟩ := result_settled hcall hcalls
    have hsame : ∀ c < o.calls.length, (o.result? c).isSome → o'.result? c = o.result? c := by
      intro c _ hsome
      refine hother c ?_
      rintro rfl
      simp [result_queued hcall hrun] at hsome
    rw [hcalls] at hpc'
    rcases set_cases hpc' with ⟨rfl, rfl⟩ | ⟨-, hpc⟩
    · obtain ⟨a, hdone⟩ : ∃ a, result = .ok a := by simpa using hover
      obtain rfl := hok a hdone
      exact h.still_settled hcall hstage' (.inl hrun) hsame
    · exact h.still_settled hpc hstage' hover hsame
  | drop hjoined hcalls hmoot =>
    exact h.still_settled (hcalls ▸ hpc') hstage' hover fun c _ _ => result_same hcalls c
  | join hcall hstage hrun hleft hjoined hcalls =>
    have hsame := result_set hcall hcalls (by rw [hrun])
    rw [hcalls] at hpc'
    rcases set_cases hpc' with ⟨-, rfl⟩ | ⟨-, hpc⟩
    · simp at hover
    · exact h.still_settled hpc hstage' hover fun c _ _ => hsame c
  | @joinLast q call children₀ left₀ requested cancelled hcall hstage hrun hleft hjoined hcalls =>
    have hsame := result_set hcall hcalls (by rw [hrun]; rfl)
    rw [hcalls] at hpc'
    rcases set_cases hpc' with ⟨rfl, rfl⟩ | ⟨-, hpc⟩
    · obtain ⟨rfl, rfl⟩ := Stage.join.inj hstage'
      obtain ⟨-, rfl⟩ : requested = false ∧ cancelled = false := by simpa using hover
      exact h.settled_of_last hcall hstage hrun (by simpa using hleft) hjoined hsame
    · exact h.still_settled hpc hstage' hover fun c _ _ => hsame c
  | shutdown timeout tasks hcalls hjoined =>
    rw [hcalls] at hpc'
    rcases append_cases hpc' with hpc | ⟨hle, -⟩
    · exact h.still_settled hpc hstage' hover fun c hc _ => result_append hcalls hc
    · rw [List.getElem?_append_right hle] at hpc'
      rcases family_cases hpc' with ⟨-, rfl⟩ | ⟨i, t, -, -, rfl⟩
      · simp at hover
      · cases hstage'

theorem Joint.move (h : o.Joint) (htold : o.Told) (hmove : o.Move o') : o'.Joint := by
  have hjoins := hmove.joins htold
  exact {
    parents := fun _ _ _ => parents_move h hmove hjoins
    children := fun _ _ _ _ => children_move h hmove hjoins
    told := fun _ => joined_move h hmove hjoins
    waits := fun _ _ _ _ _ => waits_move h hjoins
    settled := fun _ _ _ _ => over_joined h hjoins }

end Office
end Turnstile
