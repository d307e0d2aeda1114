-- What is true of a host at any time, and lets each name be looked at on its own: names are stored
-- under keys by tasks that go by them, questions are asked of tasks that are there, and whoever
-- stands in the mailbox of a task has asked it.
import Turnstile.Proofs.Supervisor.Comings

namespace Turnstile

namespace Desk

variable {quits : Nat → Prop} {d d' : Desk}

/-- The calls that wait for an answer, or have one, ask instances that are there. -/
def Placed (d : Desk) : Prop :=
  ∀ (c : Nat) (reply : Reply), d.replies[c]? = some (some reply) →
    (reply.waits = true ∨ reply.result.isSome = true) → reply.task < d.insts.length

theorem Placed.add (h : d.Placed) {new : Option Reply} {insts : List Instance}
    (hlength : d.insts.length ≤ insts.length)
    (hnew : ∀ reply, new = some reply → (reply.waits = true ∨ reply.result.isSome = true) →
      reply.task < insts.length) :
    (⟨insts, d.replies ++ [new]⟩ : Desk).Placed := by
  intro c reply hreply hasks
  rcases concat_get? hreply with hreply | ⟨-, heq⟩
  · exact Nat.lt_of_lt_of_le (h c reply hreply hasks) hlength
  · exact hnew reply heq.symm hasks

theorem Placed.small (h : d.Placed) (hsmall : Small d d') : d'.Placed := by
  cases hsmall with
  | post hi hr hpost =>
    intro c reply hreply hasks
    simpa [set] using h c reply hreply hasks
  | call => exact h.add (Nat.le_refl _) nofun
  | refuse t =>
    refine h.add (Nat.le_refl _) fun reply heq hasks => ?_
    obtain rfl := Option.some.inj heq
    simp at hasks
  | create halive hmailbox =>
    intro c reply hreply hasks
    have hlt := h c reply hreply hasks
    simp only [List.length_append, List.length_singleton]
    omega

theorem Placed.smalls (h : d.Placed) (hs : Smalls d d') : d'.Placed := by
  induction hs with
  | refl => exact h
  | tail _ hsmall ih => exact ih.small hsmall

theorem Placed.resolve (h : d.Placed) (c : Nat) (result : Except Fault Answer) :
    (d.resolve c result).Placed := by
  unfold Desk.resolve
  split
  · rename_i t hwaits
    intro e reply hreply hasks
    rcases replies_set hreply with ⟨rfl, heq⟩ | ⟨-, hreply⟩
    · obtain rfl := Option.some.inj heq
      exact h _ ⟨t, none, true⟩ hwaits (.inl rfl)
    · exact h e reply hreply hasks
  · exact h

theorem Placed.gives {given : List (Nat × Except Fault Answer)} (h : d.Placed)
    (hgives : Gives given d d') : d'.Placed := by
  induction hgives with
  | done d => exact h
  | small hsmall _ ih => exact ih (h.small hsmall)
  | give _ ih => exact ih (h.resolve _ _)

/-- Every move keeps whom the calls ask in its place. -/
theorem Placed.next (h : d.Placed) (hnext : Next quits d d') : d'.Placed := by
  cases hnext with
  | smalls hs => exact h.smalls hs
  | @ask t i j question hi hpost =>
    refine h.add (by simp [set]) fun reply heq _ => ?_
    obtain rfl := Option.some.inj heq
    simpa [set] using (List.getElem?_eq_some_iff.1 hi).1
  | @giveUp c t result hquits hreply =>
    intro e reply hget hasks
    have hlength : (d.giveUp c t result).insts.length = d.insts.length := by simp [Desk.giveUp]
    rw [hlength]
    rcases replies_set hget with ⟨rfl, heq⟩ | ⟨-, hother⟩
    · obtain rfl := Option.some.inj heq
      exact h _ ⟨t, result, true⟩ hreply (.inl rfl)
    · exact h e reply hother hasks
  | @feed t i _ s hi hgives =>
    have hset : (d.set t (i.step s).1).Placed := by
      intro c reply hreply hasks
      simpa [set] using h c reply hreply hasks
    exact hset.gives hgives

end Desk

namespace Host

variable {quits : Nat → Prop} {h h' : Host} {t c : Nat} {task : Task} {b : Value}

/-- What is true of a host at any time. -/
structure Sound (h : Host) : Prop where
  served : h.Served
  placed : h.desk.Placed
  tied : h.Tied
  counted : h.Counted

theorem reply_of_asked {call : Call} {result : Option (Except Fault Answer)}
    (hasked : call.asked? = some (t, result)) : ∃ waits, call.reply? = some ⟨t, result, waits⟩ ∧
      (waits = true ∨ result.isSome = true) := by
  obtain ⟨parent, stage, run⟩ := call
  cases stage with
  | reply u answer =>
    cases answer with
    | some answer =>
      obtain ⟨rfl, rfl⟩ := Prod.mk.inj (Option.some.inj hasked)
      exact ⟨_, rfl, .inr rfl⟩
    | none =>
      cases run with
      | waiting cancelled =>
        obtain ⟨rfl, rfl⟩ := Prod.mk.inj (Option.some.inj hasked)
        exact ⟨true, rfl, .inl rfl⟩
      | queued cancelled => simp [Call.asked?] at hasked
      | done answer => simp [Call.asked?] at hasked
  | _ => simp [Call.asked?] at hasked

theorem asked_of_awaits (hawaits : h.desk.Awaits c t) :
    ∃ call, h.calls[c]? = some call ∧ call.asked? = some (t, none) := by
  have hreply : (h.calls.map Call.reply?)[c]? = some (some ⟨t, none, true⟩) := hawaits
  rw [List.getElem?_map] at hreply
  obtain ⟨⟨parent, stage, run⟩, hcall, hreply⟩ := Option.map_eq_some_iff.1 hreply
  refine ⟨_, hcall, ?_⟩
  cases stage with
  | reply u answer =>
    cases run with
    | waiting cancelled =>
      obtain ⟨rfl, rfl⟩ : u = t ∧ answer = none := by simpa [Call.reply?] using hreply
      simp [Call.asked?]
    | queued cancelled => simp [Call.reply?] at hreply
    | done answer => simp [Call.reply?] at hreply
  | _ => simp [Call.reply?] at hreply

theorem Sound.places (hsound : h.Sound) : h.Placed := by
  intro call hcall t result hasked
  obtain ⟨c, hc⟩ := List.getElem?_of_mem hcall
  obtain ⟨waits, hreply, hwaits⟩ := reply_of_asked hasked
  have hlt := hsound.placed c ⟨t, result, waits⟩ (hreply ▸ reply_of_call hc) hwaits
  simpa [desk] using hlt

theorem Sound.asked (hsound : h.Sound) (b : Value) : h.Asked b := by
  intro t task ht hof c hc
  have hwaiting : c ∈ h.desk.waiting t := by
    rw [Desk.waiting_of (inst_of_task ht)]
    exact hc
  obtain ⟨call, hcall, hasked⟩ := asked_of_awaits (hsound.served.answerable.awaits t c hwaiting)
  exact ⟨call, hcall, by simp [asks, hasked, isOf_of_task ht hof]⟩

/-! ## Runs -/

theorem placed_after (hserved : h.Served) (hplaced : h.desk.Placed) (deeds : List Deed) :
    (h.after deeds).desk.Placed := by
  have hboth := after_keeps (P := fun h => h.Served ∧ h.desk.Placed) ?_ ⟨hserved, hplaced⟩ deeds
  · exact hboth.2
  · rintro g d ⟨hserved, hplaced⟩
    exact ⟨hserved.act d, hplaced.next (serving_act hserved.tidy d).next⟩

theorem tied_of_orderly (horderly : h.roster.Orderly) : h.Tied := by
  refine ⟨horderly.apart.1, fun p hp => ?_⟩
  obtain ⟨e, he, -, hname, -⟩ := horderly.stored p hp
  rw [entries_get?] at he
  obtain ⟨task, ht, rfl⟩ := Option.map_eq_some_iff.1 he
  exact ⟨task, ht, hname⟩

/-- Restarts are counted under the names of tasks whose end was told, and these are keys. -/
theorem counted_next {slips : Prop} {r r' : Roster} (horderly : r.Orderly)
    (hkeys : ∀ p ∈ r.restarts, p.1.isKey = true) (hnext : r.Next slips r') :
    ∀ p ∈ r'.restarts, p.1.isKey = true := by
  cases hnext with
  | forget hslips hkey hfree => exact keys_setName hkeys hkey
  | start machine payload number hkey hfree => exact keys_setName hkeys hkey
  | refuse hexits he hcount =>
    exact keys_setName hkeys (horderly.exit_isKey (hexits ▸ List.mem_cons_self) he)
  | restart hexits he hfailed hpolicy hfree hcount =>
    exact keys_setName hkeys (horderly.exit_isKey (hexits ▸ List.mem_cons_self) he)
  | _ => exact hkeys

/-- Whatever happens to a host that was opened, all this stays true. -/
theorem sound_opened (settings : Settings) (registry : Registry) (bus : Bus Observer)
    (deeds : List Deed) : ((opened settings registry bus).after deeds).Sound := by
  have hserved := served_opened settings registry bus
  have hroster := after_keeps_roster
    (P := fun r => r.Orderly ∧ ∀ p ∈ r.restarts, p.1.isKey = true)
    (fun _ _ _ hkept hnext => ⟨hkept.1.next hnext, counted_next hkept.1 hkept.2 hnext⟩)
    (steady_opened settings registry bus) ⟨orderly_opened settings registry bus, nofun⟩ deeds
  have hplaced : (opened settings registry bus).desk.Placed := by
    intro c reply hreply
    simp [opened, desk] at hreply
  exact ⟨hserved.after deeds, placed_after hserved hplaced deeds, tied_of_orderly hroster.1,
    hroster.2⟩

end Host
end Turnstile
