-- What comes and goes under a name: an instance is started, a question is put, a name is let go, the
-- restarts behind it are counted. All of it stays with the name, and its supervisor of one name
-- does the same.
import Turnstile.Proofs.Supervisor.Bodies

namespace Turnstile

namespace Host

variable {h h' : Host} {t c : Nat} {task : Task} {b name : Value} {s : Solo}

/-- The calls that ask a task ask one that is there. -/
def Placed (h : Host) : Prop :=
  ∀ call ∈ h.calls, ∀ t result, call.asked? = some (t, result) → t < h.tasks.length

/-! ## Questions -/

/-- To note one more call gives the others no new numbers. -/
theorem turn_addCall (h : Host) (call : Call) (b : Value) (hc : c ≤ h.calls.length) :
    (h.addCall call).1.turn b c = h.turn b c := rank_append h.calls [call] hc

theorem Asked.plain (hasked : h.Asked b) (call : Call) (ht : h.task? t = some task)
    (hof : task.isOf b = true) :
    task.plain ((h.addCall call).1.turn b) = task.plain (h.turn b) := by
  have hinst : task.inst.renumber ((h.addCall call).1.turn b) = task.inst.renumber (h.turn b) := by
    refine Instance.renumber_congr fun c hc => ?_
    obtain ⟨asking, hcall, -⟩ := hasked t task ht hof c hc
    obtain ⟨hlt, -⟩ := List.getElem?_eq_some_iff.1 hcall
    exact turn_addCall h call b (by omega)
  unfold Task.plain
  rw [hinst]

/-- A call that asks nobody concerns no name. -/
theorem goes_calls (b : Value) {calls : List Call}
    (hcalls : ∀ (a : Value) (c : Nat),
      (calls[c]?).filter (h.asks a) = (h.calls[c]?).filter (h.asks a)) :
    Goes b h { h with calls := calls } (h.solo b) := by
  refine ⟨rfl, fun a _ _ => ?_, ?_, fun htied => ⟨htied.keys, htied.held⟩, id, id⟩
  · unfold share
    congr 1
    exact funext (hcalls a)
  · have hfilter : calls.filter (h.asks b) = h.calls.filter (h.asks b) := filter_congr (hcalls b)
    have hturn : ({ h with calls := calls } : Host).turn b = h.turn b :=
      funext (rank_congr (hcalls b))
    unfold solo
    rw [hturn]
    congr 1
    exact congrArg (List.map _) hfilter

theorem goes_noteCall (b : Value) (call : Call) (hnone : call.asked? = none) :
    Goes b h (h.addCall call).1 (h.solo b) := by
  refine goes_calls b fun a c => filter_concat ?_ c
  simp [asks, hnone]

/-- What asks nobody becomes something else that asks nobody. -/
theorem goes_setCall (b : Value) {call : Call} (hcall : h.calls[c]? = some call)
    (hnone : call.asked? = none) (call' : Call) (hnone' : call'.asked? = none) :
    Goes b h (h.setCall c call') (h.solo b) := by
  refine goes_calls b fun a d => ?_
  rw [List.getElem?_set]
  by_cases hd : c = d
  · subst hd
    obtain ⟨hlt, hget⟩ := List.getElem?_eq_some_iff.1 hcall
    simp [hlt, hget, Option.filter, asks, hnone, hnone']
  · simp [hd]

/-- A question is put to a task of a name. -/
theorem goes_addCall (hb : b.IsName) (hasked : h.Asked b) (call : Call)
    {result : Option (Except Fault Answer)} (hcall : call.asked? = some (t, result))
    (hof : h.isOf b t = true) : Goes b h (h.addCall call).1
      { h.solo b with replies := (h.solo b).replies ++ [result] } := by
  have hasks : h.asks b call = true := by simp [asks, hcall, hof]
  refine ⟨rfl, fun a ha hba => ?_, ?_, fun htied => ⟨htied.keys, htied.held⟩, id, id⟩
  · have hnot : h.asks a call = false := by simp [asks, hcall, isOf_other hb hba hof]
    unfold share
    congr 1
    exact funext (filter_concat hnot)
  · have hplain : (h.tasks.filter (Task.isOf b)).map (Task.plain ((h.addCall call).1.turn b)) =
        (h.tasks.filter (Task.isOf b)).map (Task.plain (h.turn b)) := by
      refine List.map_congr_left fun task htask => ?_
      obtain ⟨hmem, hof⟩ := List.mem_filter.1 htask
      obtain ⟨t, ht⟩ := List.getElem?_of_mem hmem
      exact hasked.plain call ht hof
    have hreplies : ((h.calls ++ [call]).filter (h.asks b)).map (fun call => call.asked?.bind (·.2)) =
        (h.calls.filter (h.asks b)).map (fun call => call.asked?.bind (·.2)) ++ [result] := by
      rw [List.filter_append, List.map_append]
      simp [hasks, hcall]
    unfold solo
    congr 1

/-! ## Holding a name -/

/-- The restarts of a name are counted. -/
theorem goes_count (hb : b.IsName) (hcounted : h.Counted) (hname : name.same b = true)
    (times : List Rat) : Goes b h { h with restarts := setName h.restarts name times }
      { h.solo b with restarts := some times } := by
  have hkey := Value.isKey_of_same hname hb.isKey
  refine ⟨rfl, fun a ha hba => ?_, ?_, fun htied => ⟨htied.keys, htied.held⟩,
    fun hcounted => keys_setName hcounted hkey, id⟩
  · have hother := Value.other_of_same hb.isKey hba hname
    unfold share
    simp only [lookupName_setName hcounted hkey, hother, Bool.false_eq_true, if_false]
    rfl
  · unfold solo
    simp only [lookupName_setName hcounted hkey, hname, if_true]
    rfl

/-- A name is let go. -/
theorem goes_vacate (hb : b.IsName) (htied : h.Tied) (hname : name.same b = true) :
    Goes b h { h with holders := eraseName h.holders name }
      { h.solo b with holder := none } := by
  have hkey := Value.isKey_of_same hname hb.isKey
  refine ⟨rfl, fun a ha hba => ?_, ?_, fun htied => ⟨fun p hp => ?_, fun p hp => ?_⟩, id, id⟩
  · have hother := Value.other_of_same hb.isKey hba hname
    unfold share
    simp only [lookupName_eraseName htied.keys hkey, hother, Bool.false_eq_true, if_false]
    rfl
  · unfold solo
    simp only [lookupName_eraseName htied.keys hkey, hname, if_true, Option.map_none]
    rfl
  · exact htied.keys p (List.mem_filter.1 hp).1
  · exact htied.held p (List.mem_filter.1 hp).1

/-! ## A new instance -/

section Spawn
variable {machine : Machine} {payload : Value} {number : Option Nat}

/-- The task of an instance that is started. -/
def started (machine : Machine) (name payload : Value) (number : Option Nat) : Task where
  inst := .create machine name payload
  number := number
  supervised := true
  outlet := .shared
  run := .queued false

/-- Nobody has asked a new instance anything, and who was asked before is asked still. -/
theorem asks_spawn (hplaced : h.Placed) (a : Value) {call : Call} (hcall : call ∈ h.calls) :
    (h.spawn machine name payload number).1.asks a call = h.asks a call := by
  unfold asks
  cases hasked : call.asked? with
  | none => simp
  | some p =>
    have hlt : p.1 < h.tasks.length := hplaced call hcall p.1 p.2 hasked
    have hsame : (h.spawn machine name payload number).1.task? p.1 = h.task? p.1 :=
      List.getElem?_append_left hlt
    simp [isOf, hsame]

theorem share_spawn (hplaced : h.Placed) (htied : h.Tied) (hkey : name.isKey = true) {a : Value}
    (hother : name.same a = false) :
    (h.spawn machine name payload number).1.share a = h.share a := by
  have hcalls : ∀ c : Nat, (h.calls[c]?).filter ((h.spawn machine name payload number).1.asks a) =
      (h.calls[c]?).filter (h.asks a) := by
    intro c
    cases hcall : h.calls[c]? with
    | none => simp
    | some call => simp [Option.filter, asks_spawn hplaced a (List.mem_of_getElem? hcall)]
  have hnot : (started machine name payload number).isOf a = false := hother
  unfold share
  congr 1
  · show lookupName (setName h.holders name h.tasks.length) a = _
    rw [lookupName_setName htied.keys hkey, hother]
    simp
  · exact funext (filter_concat hnot)
  · exact funext hcalls

/-- The new instance stands behind all others of its name, and holds it. -/
theorem solo_spawn (hplaced : h.Placed) (htied : h.Tied) (hkey : name.isKey = true)
    (hname : name.same b = true) : (h.spawn machine name payload number).1.solo b =
      (h.solo b).spawn machine name payload := by
  have hmine : (started machine name payload number).isOf b = true := hname
  have hturn : (h.spawn machine name payload number).1.turn b = h.turn b := by
    funext c
    refine rank_of_marks (List.map_congr_left fun call hcall => ?_) c
    exact asks_spawn hplaced b hcall
  have hreplies : h.calls.filter ((h.spawn machine name payload number).1.asks b) =
      h.calls.filter (h.asks b) := List.filter_congr fun call hcall => asks_spawn hplaced b hcall
  have hplace : (h.spawn machine name payload number).1.place b h.tasks.length =
      (h.solo b).tasks.length := by
    show rank _ (h.tasks ++ [started machine name payload number]) h.tasks.length = _
    rw [rank_append _ _ (by omega), rank_length]
    simp [solo]
  have hholder : (lookupName (setName h.holders name h.tasks.length) b).map
      ((h.spawn machine name payload number).1.place b) = some (h.solo b).tasks.length := by
    rw [lookupName_setName htied.keys hkey, if_pos hname, Option.map_some, hplace]
  have htasks : ((h.tasks ++ [started machine name payload number]).filter (Task.isOf b)).map
      (Task.plain (h.turn b)) =
      (h.solo b).tasks ++ [(started machine name payload number).plain (h.turn b)] := by
    rw [List.filter_append, List.map_append]
    simp [solo, hmine]
  unfold Solo.spawn
  unfold solo at hholder htasks ⊢
  rw [hturn]
  congr 1
  exact congrArg (List.map _) hreplies

theorem Tied.spawn (htied : h.Tied) (hkey : name.isKey = true) :
    (h.spawn machine name payload number).1.Tied := by
  refine ⟨keys_setName htied.keys hkey, fun p hp => ?_⟩
  rcases mem_setName hp with hp | ⟨htask, hwhose⟩
  · obtain ⟨task, ht, hwhose⟩ := htied.held p hp
    exact ⟨task, task?_addTask ht _, hwhose⟩
  · refine ⟨started machine name payload number, ?_, hwhose.imp id fun hsame => hsame.1⟩
    rw [htask]
    exact h.task?_spawn machine name payload number

/-- A new instance holds the name. -/
theorem goes_spawn (hb : b.IsName) (htied : h.Tied) (hplaced : h.Placed)
    (hname : name.same b = true) (hmachine : machine.hooks.Homely b) (payload : Value)
    (number : Option Nat) : Goes b h (h.spawn machine name payload number).1
      ((h.solo b).spawn machine name payload) := by
  have hkey := Value.isKey_of_same hname hb.isKey
  refine ⟨rfl, fun a ha hba => ?_, solo_spawn hplaced htied hkey hname, fun htied =>
    htied.spawn hkey, id, fun hhome t task ht hmine => ?_⟩
  · exact share_spawn hplaced htied hkey (Value.other_of_same hb.isKey hba hname)
  · rcases task?_addTask_eq_some ht with ht | ⟨-, rfl⟩
    · exact hhome t task ht hmine
    · exact hmachine

end Spawn

/-! ## Calls upon a name -/

/-- A start goes by whether the name is found, as all other calls do. -/
theorem start_eq {choice : MachineChoice} {machine : Except Value Machine}
    (hchoose : h.choose choice = .ok machine) (hkey : name.isKey = true) (payload : Value) :
    (h.start choice name payload).1 = match h.lookup name with
      | .ok _ => h
      | .error _ => match machine with
        | .error _ => h.fresh name
        | .ok m => ((h.fresh name).nextNumber.1.spawn m name payload (some h.numbers)).1 := by
  unfold Host.start Host.lookup
  simp only [hchoose, hkey, Bool.not_true, Bool.false_eq_true, if_false]
  cases h.holder? name with
  | none => cases machine <;> rfl
  | some p =>
    cases halive : p.2.inst.alive with
    | true => simp [halive]
    | false =>
      simp only [halive, Bool.false_eq_true, if_false]
      cases machine <;> rfl

theorem goes_start (hb : b.IsName) (htied : h.Tied) (hplaced : h.Placed) (hcounted : h.Counted)
    (hname : name.same b = true) {choice : MachineChoice}
    (hmachine : ∀ m, h.choose choice = .ok (.ok m) → m.hooks.Homely b) (payload : Value) :
    Goes b h (h.start choice name payload).1 ((h.solo b).start choice name payload) := by
  have hkey := Value.isKey_of_same hname hb.isKey
  have hlookup := lookup_agrees hb htied hname
  have hchoose : (h.solo b).choose choice = h.choose choice := by cases choice <;> rfl
  unfold Solo.start
  rw [hchoose]
  cases hchosen : h.choose choice with
  | error fault =>
    have hsame : (h.start choice name payload).1 = h := by simp [Host.start, hchosen]
    rw [hsame]
    exact .refl b h
  | ok machine =>
    rw [start_eq hchosen hkey]
    cases hfound : h.lookup name with
    | ok t =>
      rw [hfound] at hlookup
      simp only [hlookup.1]
      exact .refl b h
    | error fault =>
      rw [hfound] at hlookup
      have hfresh : Goes b h (h.fresh name) { h.solo b with restarts := some [] } :=
        goes_count hb hcounted hname []
      simp only [hlookup]
      cases machine with
      | error v => exact hfresh
      | ok m =>
        have hnumber : Goes b h (h.fresh name).nextNumber.1 { h.solo b with restarts := some [] } :=
          hfresh.aside rfl rfl rfl rfl rfl rfl
        have hspawn := goes_spawn hb (hnumber.tied htied) hplaced hname (hmachine m hchosen) payload
          (some h.numbers)
        rw [hnumber.solo] at hspawn
        exact hnumber.trans hspawn

/-- What is accepted of a name is accepted by its supervisor of one name. -/
theorem Agrees.accepted {result : Except Fault Host} {result' : Except Fault Solo}
    (hagrees : Agrees b h result result') (hok : result = .ok h') :
    ∃ s, result' = .ok s ∧ Plays b h h' s := by
  subst hok
  cases result' with
  | error fault => exact hagrees.elim
  | ok s => exact ⟨s, rfl, hagrees⟩

theorem goes_send (hb : b.IsName) (htied : h.Tied) {r : Send} (hname : r.name.same b = true) :
    Goes b h (h.accepting (h.send r)) (match (h.solo b).send r with
      | .ok s => s
      | .error _ => h.solo b) := by
  have hagrees := agrees_send hb htied hname
  cases hsend : h.send r with
  | ok h' =>
    obtain ⟨s, hsolo, hplays⟩ := hagrees.accepted hsend
    rw [hsolo]
    exact hplays.toGoes
  | error fault =>
    rw [hsend] at hagrees
    cases hsolo : (h.solo b).send r with
    | ok s => simp [hsolo, Agrees] at hagrees
    | error fault => exact .refl b h

/-- The question is put at the end of the mailbox, under the number of the call that asks. -/
theorem goes_query (hb : b.IsName) (htied : h.Tied) (hasked : h.Asked b)
    (hname : name.same b = true) (kind : String) (argument : Value) :
    Goes b h (h.query name kind argument).1 ((h.solo b).query name kind argument) := by
  have hlookup := lookup_agrees hb htied hname
  unfold Host.query Solo.query
  cases hfound : h.lookup name with
  | error fault =>
    rw [hfound] at hlookup
    simp only [hlookup]
    exact .refl b h
  | ok t =>
    rw [hfound] at hlookup
    obtain ⟨hsolo, task, ht, hof, halive⟩ := hlookup
    simp only [hsolo]
    cases Question.ofKind kind argument with
    | error fault => exact .refl b h
    | ok question =>
      have hadded := goes_addCall hb hasked ⟨none, .reply t none, .waiting false⟩ rfl
        (isOf_of_task ht hof)
      have hnumber : (h.addCall ⟨none, .reply t none, .waiting false⟩).1.turn b h.calls.length =
          (h.solo b).replies.length := by
        rw [turn_addCall h _ b (Nat.le_refl _)]
        unfold turn solo
        rw [rank_length, List.length_map]
      have hagrees := agrees_post hb (h := (h.addCall ⟨none, .reply t none, .waiting false⟩).1) ht
        hof (.query h.calls.length question false)
      obtain ⟨h', hpost⟩ := post_alive (h := (h.addCall ⟨none, .reply t none, .waiting false⟩).1)
        ht halive (.query h.calls.length question false)
      obtain ⟨s, hposted, hplays⟩ := hagrees.accepted hpost
      simp only [Request.renumber, Bool.false_eq_true, if_false, hnumber, hadded.solo] at hposted
      have hask : (h.ask t question).1 = h' := by
        simp only [Host.addCall] at hpost
        simp only [Host.ask, Host.addCall, hpost]
      show Goes b h (h.ask t question).1 (match ({ h.solo b with
          replies := (h.solo b).replies ++ [none] } : Solo).post (h.place b t)
          (.query (h.solo b).replies.length question false) with
        | .ok s => s
        | .error _ => h.solo b)
      rw [hask, show ({ h.solo b with replies := (h.solo b).replies ++ [none] } : Solo).post
        (h.place b t) _ = .ok s from hposted]
      exact hadded.trans hplays.toGoes

/-- Who waits for the end of a task is nothing to its name. -/
theorem plays_watchers (hb : b.IsName) (hof : h.isOf b t = true) (watchers : List Nat → List Nat) :
    Plays b h (h.updateTask t fun task => { task with watchers := watchers task.watchers })
      (h.solo b) := by
  obtain ⟨task, ht, hmine⟩ := exists_of_isOf hof
  have hupdate := plays_updateTask hb ht hmine
    (fun task => { task with watchers := watchers task.watchers }) id rfl rfl rfl
  have hsame : (h.solo b).updateTask (h.place b t) id = h.solo b := by simp [Solo.updateTask]
  rw [hsame] at hupdate
  exact hupdate

theorem plays_watch (hb : b.IsName) (hof : h.isOf b t = true) (c : Nat) :
    Plays b h (h.watch t c) (h.solo b) := by
  unfold Host.watch
  split
  · exact plays_aside b rfl rfl rfl rfl rfl rfl
  · exact plays_watchers hb hof (· ++ [c])

theorem goes_openWindow (hb : b.IsName) (hof : h.isOf b t = true) {call : Call}
    (hcall : h.calls[c]? = some call) (hnone : call.asked? = none) (timeout : Number) :
    Goes b h (h.openWindow c call t timeout) (h.solo b) := by
  have hset := goes_setCall b hcall hnone { call with
    stage := .window t timeout, run := .waiting false } rfl
  have htimer : Goes b h ((h.setCall c { call with
      stage := .window t timeout, run := .waiting false }).setTimer timeout (.close c))
      (h.solo b) := hset.aside rfl rfl rfl rfl rfl rfl
  have hwatch := plays_watch hb (h := (h.setCall c { call with
    stage := .window t timeout, run := .waiting false }).setTimer timeout (.close c)) hof c
  rw [htimer.solo] at hwatch
  exact htimer.trans hwatch.toGoes

/-- The request to stop is put at the end of the mailbox; the wait for the end is the caller's. -/
theorem goes_stop (hb : b.IsName) (htied : h.Tied) (hname : name.same b = true)
    (timeout : Option Number) :
    Goes b h (h.stop name timeout).1 ((h.solo b).stop name) := by
  have hlookup := lookup_agrees hb htied hname
  unfold Host.stop Solo.stop
  cases hfound : h.lookup name with
  | error fault =>
    rw [hfound] at hlookup
    simp only [hlookup]
    exact .refl b h
  | ok t =>
    rw [hfound] at hlookup
    obtain ⟨hsolo, task, ht, hof, halive⟩ := hlookup
    obtain ⟨h', hpost⟩ := post_alive ht halive .stop
    obtain ⟨s, hposted, hplays⟩ := (agrees_post hb ht hof .stop).accepted hpost
    have hposted : (h.solo b).post (h.place b t) .stop = .ok s := hposted
    simp only [hsolo, hpost, hposted]
    have hnoted := goes_noteCall (h := h') b ⟨none, .closing t
      (timeout.getD h'.settings.shutdownTimeout), .waiting false⟩ rfl
    have hwindow := goes_openWindow hb (h := (h'.addCall ⟨none, .closing t
      (timeout.getD h'.settings.shutdownTimeout), .waiting false⟩).1)
      (hplays.isOf (isOf_of_task ht hof)) (h'.call_addCall _) rfl
      (timeout.getD h'.settings.shutdownTimeout)
    rw [hnoted.solo, hplays.solo] at hwindow
    rw [hplays.solo] at hnoted
    exact hplays.toGoes.trans (hnoted.trans hwindow)

/-! ## Ends -/

/-- Whether a task holds its name is seen among those of the name. -/
theorem holds_iff (hb : b.IsName) (htied : h.Tied) (ht : h.task? t = some task)
    (hof : task.isOf b = true) : lookupName h.holders task.inst.name = some t ↔
      (h.solo b).holder = some (h.place b t) := by
  have hkey := Value.isKey_of_same hof hb.isKey
  rw [lookupName_congr htied.keys hkey hof]
  have hholder : (h.solo b).holder = (lookupName h.holders b).map (h.place b) := rfl
  rw [hholder]
  constructor
  · intro hheld
    rw [hheld, Option.map_some]
  · intro hheld
    obtain ⟨u, hu, hplace⟩ := Option.map_eq_some_iff.1 hheld
    obtain ⟨other, hother, hmine⟩ := exists_of_isOf (htied.isOf hu)
    have hat : nth? (Task.isOf b) h.tasks (h.place b t) = some t :=
      nth?_eq_some.2 ⟨⟨task, ht, hof⟩, rfl⟩
    have hat' : nth? (Task.isOf b) h.tasks (h.place b t) = some u :=
      nth?_eq_some.2 ⟨⟨other, hother, hmine⟩, hplace⟩
    rw [hu, ← hat', hat]

/-- A crash is followed by a restart or not, as the restarts behind the name have it. -/
theorem goes_afterCrash (hb : b.IsName) (htied : h.Tied) (hplaced : h.Placed)
    (hcounted : h.Counted) (hmachine : task.inst.machine.hooks.Homely b)
    (hof : task.isOf b = true) (fault : Fault) (number : Nat → Nat) :
    Goes b h (h.afterCrash task fault) ((h.solo b).afterCrash (task.plain number)) := by
  have hkey := Value.isKey_of_same hof hb.isKey
  have hheld : (h.solo b).holder.isSome = (lookupName h.holders task.inst.name).isSome := by
    rw [lookupName_congr htied.keys hkey hof]
    exact Option.isSome_map
  have hrecent : (h.solo b).recentRestarts = h.recentRestarts task.inst.name := by
    unfold Host.recentRestarts
    rw [lookupName_congr hcounted hkey hof]
    rfl
  have hsettings : (h.solo b).world.settings = h.settings := rfl
  have hclock : (h.solo b).world.clock = h.clock := rfl
  unfold Host.afterCrash Solo.afterCrash
  simp only [hheld, hrecent, hsettings, hclock]
  cases h.settings.restart with
  | temporary => exact (Goes.refl b h).aside rfl rfl rfl rfl rfl rfl
  | transient =>
    simp only
    split
    · exact .refl b h
    · split
      · have hcount := goes_count hb hcounted hof (h.recentRestarts task.inst.name)
        exact hcount.aside rfl rfl rfl rfl rfl rfl
      · have hcount := goes_count hb hcounted hof (h.recentRestarts task.inst.name ++ [h.clock])
        generalize hnoted : Host.note _ .warning task.inst.name _ = noted
        have hgoes : Goes b h noted { h.solo b with
            restarts := some (h.recentRestarts task.inst.name ++ [h.clock]) } := by
          rw [← hnoted]
          exact hcount.aside rfl rfl rfl rfl rfl rfl
        have hplaces : noted.Placed := by
          rw [← hnoted]
          exact hplaced
        have hspawn := goes_spawn hb (hgoes.tied htied) hplaces hof hmachine
          task.inst.initialPayload none
        rw [hgoes.solo] at hspawn
        exact (hgoes.trans hspawn).aside rfl rfl rfl rfl rfl rfl

/-- The supervisor learns of the end of a task of a name. -/
theorem goes_exited (hb : b.IsName) (htied : h.Tied) (hplaced : h.Placed)
    (hcounted : h.Counted) (hhome : h.Homely b) (hof : h.isOf b t = true) :
    Goes b h (h.exited t) ((h.solo b).exited (h.place b t)) := by
  obtain ⟨task, ht, hmine⟩ := exists_of_isOf hof
  have hthere := solo_task ht hmine
  have hphase : (task.plain (h.turn b)).inst.phase = task.inst.phase := rfl
  unfold Host.exited Solo.exited
  simp only [ht, hthere, hphase]
  generalize hfreed : (if lookupName h.holders task.inst.name = some t then _ else h : Host) = freed
  have hboth : Goes b h freed (if (h.solo b).holder = some (h.place b t) then
      { h.solo b with holder := none } else h.solo b) ∧ freed.Placed := by
    rw [← hfreed]
    by_cases hholds : lookupName h.holders task.inst.name = some t
    · rw [if_pos hholds, if_pos ((holds_iff hb htied ht hmine).1 hholds)]
      exact ⟨goes_vacate hb htied hmine, hplaced⟩
    · rw [if_neg hholds, if_neg fun hheld => hholds ((holds_iff hb htied ht hmine).2 hheld)]
      exact ⟨.refl b h, hplaced⟩
  obtain ⟨hgoes, hplaces⟩ := hboth
  rw [← hgoes.solo]
  cases hended : task.inst.phase with
  | finished ending =>
    cases ending with
    | failed fault => exact hgoes.trans (goes_afterCrash hb (hgoes.tied htied) hplaces
        (hgoes.counted hcounted) (hhome t task ht hmine) hmine fault (h.turn b))
    | returned => exact hgoes.trans (.refl b freed)
    | cancelled => exact hgoes.trans (.refl b freed)
  | _ => exact hgoes.trans (.refl b freed)

end Host
end Turnstile
