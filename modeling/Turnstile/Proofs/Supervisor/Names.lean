-- Values as names: equality by value is symmetric and transitive on all that may be a key, though
-- the number that is no number is not even equal to itself. So the lists of what belongs to each
-- name are maps.
import Turnstile.Supervisor.Host

namespace Turnstile

/-! ## Equality of keys -/

theorem Binary64.toRat?_infinite (negative : Bool) : (Binary64.infinite negative).toRat? = none :=
  rfl

theorem Binary64.toRat?_nan : Binary64.nan.toRat? = none := rfl

theorem Binary64.eqRat_iff {x : Binary64} {q : Rat} : x.eqRat q = true ↔ x.toRat? = some q := by
  cases x <;> simp [Binary64.eqRat, Binary64.toRat?]

theorem Binary64.same_iff {x y : Binary64} : x.same y = true ↔
    (∃ q, x.toRat? = some q ∧ y.toRat? = some q) ∨
      ∃ negative, x = .infinite negative ∧ y = .infinite negative := by
  cases x with
  | finite n m e =>
    cases y with
    | finite n' m' e' =>
      have hx : (Binary64.finite n m e).toRat? = some _ := rfl
      rw [Binary64.same, hx, beq_iff_eq]
      constructor
      · exact fun h => .inl ⟨_, rfl, h.symm⟩
      · rintro (⟨q, hq, hq'⟩ | ⟨negative, hinfinite, -⟩)
        · rw [hq, hq']
        · cases hinfinite
    | infinite negative => simp [Binary64.same, toRat?_infinite]
    | nan => simp [Binary64.same, toRat?_nan]
  | infinite negative =>
    cases y with
    | infinite negative' => simp [Binary64.same, toRat?_infinite, @eq_comm _ negative']
    | _ => simp [Binary64.same, toRat?_infinite]
  | nan => simp [Binary64.same, toRat?_nan]

theorem Number.eqRat_iff {n : Number} {q : Rat} : n.eqRat q = true ↔ n.toRat? = some q := by
  cases n <;> simp [Number.eqRat, Number.toRat?, Binary64.eqRat_iff]

/-- Two numbers are the same if they equal one rational, or are both infinite with one sign. -/
theorem Number.same_iff {a b : Number} : a.same b = true ↔
    (∃ q, a.toRat? = some q ∧ b.toRat? = some q) ∨
      ∃ negative, a = .real (.infinite negative) ∧ b = .real (.infinite negative) := by
  cases a with
  | real x =>
    cases b with
    | real y => simp [Number.same, Number.toRat?, Binary64.same_iff]
    | _ => simp [Number.same, Number.toRat?, Number.eqRat, Binary64.eqRat_iff]
  | _ =>
    cases b with
    | real y => simp [Number.same, Number.toRat?, Binary64.eqRat_iff]
    | _ =>
      simp only [Number.same, Number.toRat?]
      rw [Number.eqRat_iff]
      simp [Number.toRat?, eq_comm]

theorem Number.same_symm {a b : Number} (h : a.same b = true) : b.same a = true := by
  rw [Number.same_iff] at h ⊢
  rcases h with ⟨q, ha, hb⟩ | ⟨negative, ha, hb⟩
  · exact .inl ⟨q, hb, ha⟩
  · exact .inr ⟨negative, hb, ha⟩

theorem Number.same_trans {a b c : Number} (hab : a.same b = true) (hbc : b.same c = true) :
    a.same c = true := by
  rw [Number.same_iff] at hab hbc ⊢
  rcases hab with ⟨q, ha, hb⟩ | ⟨negative, rfl, rfl⟩ <;>
    rcases hbc with ⟨r, hb', hc⟩ | ⟨negative', hb', rfl⟩
  · obtain rfl : q = r := Option.some.inj (hb.symm.trans hb')
    exact .inl ⟨q, ha, hc⟩
  · rw [hb'] at hb
    cases hb
  · cases hb'
  · cases hb'
    exact .inr ⟨negative, rfl, rfl⟩

namespace Value

variable {a b c : Value}

theorem same_isKey (h : a.same b = true) (ha : a.isKey = true) : b.isKey = true := by
  cases a <;> cases b <;> simp_all [same, isKey]

theorem same_symm (ha : a.isKey = true) (h : a.same b = true) : b.same a = true := by
  cases a <;> cases b <;> simp_all [same, isKey, Number.same_symm]

theorem same_trans (ha : a.isKey = true) (hab : a.same b = true) (hbc : b.same c = true) :
    a.same c = true := by
  cases a with
  | number n =>
    cases b <;> cases c <;> simp_all [same]
    exact Number.same_trans hab hbc
  | list items => cases ha
  | record fields => cases ha
  | _ => cases b <;> cases c <;> simp_all [same]

/-- A value that names things: it may be a key, and is equal to itself. -/
structure IsName (v : Value) : Prop where
  isKey : v.isKey = true
  refl : v.same v = true

/-- What a key is equal to is a name. -/
theorem isName_of_same (ha : a.isKey = true) (h : a.same b = true) : b.IsName :=
  have hb := same_isKey h ha
  ⟨hb, same_trans hb (same_symm ha h) h⟩

end Value

/-! ## What belongs to a name -/

variable {α : Type} {entries : List (Value × α)} {name other : Value} {x : α}

/-- Keys of which no two are equal. -/
def Apart (entries : List (Value × α)) : Prop :=
  (∀ p ∈ entries, p.1.isKey = true) ∧ entries.Pairwise fun p q => p.1.same q.1 = false

theorem lookupName_cons (key : Value) (y : α) : lookupName ((key, y) :: entries) name =
    if key.same name then some y else lookupName entries name := by
  unfold lookupName
  rw [List.find?_cons]
  cases hsame : key.same name <;> simp [hsame]

theorem mem_of_lookupName (h : lookupName entries name = some x) :
    ∃ key, (key, x) ∈ entries ∧ key.same name = true := by
  unfold lookupName at h
  obtain ⟨⟨key, y⟩, hfound, rfl⟩ := Option.map_eq_some_iff.1 h
  have hsame := List.find?_some hfound
  exact ⟨key, List.mem_of_find?_eq_some hfound, hsame⟩

/-- Each entry is the one that is found under its name. -/
theorem lookupName_of_mem (hapart : Apart entries) {key : Value} (hmem : (key, x) ∈ entries)
    (hname : key.same name = true) : lookupName entries name = some x := by
  obtain ⟨hkeys, hpairwise⟩ := hapart
  induction entries with
  | nil => cases hmem
  | cons p entries ih =>
    obtain ⟨k, y⟩ := p
    rw [lookupName_cons]
    rw [List.pairwise_cons] at hpairwise
    rcases List.mem_cons.1 hmem with heq | hmem
    · obtain ⟨rfl, rfl⟩ := Prod.mk.inj heq
      rw [if_pos hname]
    · have hkey := hkeys (key, x) (List.mem_cons_of_mem _ hmem)
      have hk := hkeys (k, y) List.mem_cons_self
      have hdiff : ¬ k.same name = true := fun hsame =>
        absurd (Value.same_trans hk hsame (Value.same_symm hkey hname))
          (by simp [hpairwise.1 _ hmem])
      rw [if_neg hdiff]
      exact ih hmem (fun p hp => hkeys p (List.mem_cons_of_mem _ hp)) hpairwise.2

theorem mem_setName {p : Value × α} (h : p ∈ setName entries name x) :
    p ∈ entries ∨ p.2 = x ∧ (p.1 = name ∨ p.1.same name = true ∧ ∃ y, (p.1, y) ∈ entries) := by
  induction entries with
  | nil =>
    obtain rfl := List.mem_singleton.1 h
    exact .inr ⟨rfl, .inl rfl⟩
  | cons q entries ih =>
    obtain ⟨key, y⟩ := q
    unfold setName at h
    split at h
    · rename_i hsame
      rcases List.mem_cons.1 h with rfl | h
      · exact .inr ⟨rfl, .inr ⟨hsame, y, List.mem_cons_self⟩⟩
      · exact .inl (List.mem_cons_of_mem _ h)
    · rcases List.mem_cons.1 h with rfl | h
      · exact .inl List.mem_cons_self
      · rcases ih h with h | ⟨hx, hname | ⟨hsame, y, hy⟩⟩
        · exact .inl (List.mem_cons_of_mem _ h)
        · exact .inr ⟨hx, .inl hname⟩
        · exact .inr ⟨hx, .inr ⟨hsame, y, List.mem_cons_of_mem _ hy⟩⟩

theorem lookupName_setName (hkeys : ∀ p ∈ entries, p.1.isKey = true) (hname : name.isKey = true) :
    lookupName (setName entries name x) other =
      if name.same other then some x else lookupName entries other := by
  induction entries with
  | nil => exact lookupName_cons name x
  | cons p entries ih =>
    obtain ⟨key, y⟩ := p
    have hkey : key.isKey = true := hkeys (key, y) List.mem_cons_self
    have ih := ih fun p hp => hkeys p (List.mem_cons_of_mem _ hp)
    unfold setName
    rw [lookupName_cons]
    by_cases hsame : key.same name = true
    · rw [if_pos hsame, lookupName_cons]
      by_cases hother : name.same other = true
      · rw [if_pos hother, if_pos (Value.same_trans hkey hsame hother)]
      · have hdiff : ¬ key.same other = true := fun h =>
          hother (Value.same_trans hname (Value.same_symm hkey hsame) h)
        rw [if_neg hother, if_neg hdiff, if_neg hdiff]
    · rw [if_neg hsame, lookupName_cons, ih]
      by_cases hother : name.same other = true
      · have hdiff : ¬ key.same other = true := fun h =>
          hsame (Value.same_trans hkey h (Value.same_symm hname hother))
        rw [if_pos hother, if_neg hdiff, if_pos hother]
      · rw [if_neg hother, if_neg hother]

theorem lookupName_eraseName (hkeys : ∀ p ∈ entries, p.1.isKey = true)
    (hname : name.isKey = true) : lookupName (eraseName entries name) other =
      if name.same other then none else lookupName entries other := by
  induction entries with
  | nil => simp [eraseName, lookupName]
  | cons p entries ih =>
    obtain ⟨key, y⟩ := p
    have hkey : key.isKey = true := hkeys (key, y) List.mem_cons_self
    have ih := ih fun p hp => hkeys p (List.mem_cons_of_mem _ hp)
    have herase : eraseName ((key, y) :: entries) name =
        if key.same name then eraseName entries name else (key, y) :: eraseName entries name := by
      unfold eraseName
      rw [List.filter_cons]
      cases hsame : key.same name <;> simp [hsame]
    rw [herase, lookupName_cons]
    by_cases hsame : key.same name = true
    · rw [if_pos hsame, ih]
      by_cases hother : name.same other = true
      · rw [if_pos hother, if_pos hother]
      · have hdiff : ¬ key.same other = true := fun h =>
          hother (Value.same_trans hname (Value.same_symm hkey hsame) h)
        rw [if_neg hother, if_neg hother, if_neg hdiff]
    · rw [if_neg hsame, lookupName_cons, ih]
      by_cases hother : name.same other = true
      · have hdiff : ¬ key.same other = true := fun h =>
          hsame (Value.same_trans hkey h (Value.same_symm hname hother))
        rw [if_pos hother, if_neg hdiff, if_pos hother]
      · rw [if_neg hother, if_neg hother]

theorem Apart.erase (hapart : Apart entries) (name : Value) : Apart (eraseName entries name) :=
  ⟨fun p hp => hapart.1 p ((List.mem_filter.1 hp).1), hapart.2.filter _⟩

theorem keys_setName (hkeys : ∀ p ∈ entries, p.1.isKey = true) (hname : name.isKey = true) :
    ∀ p ∈ setName entries name x, p.1.isKey = true := by
  intro p hp
  rcases mem_setName hp with hp | ⟨-, rfl | ⟨-, y, hy⟩⟩
  · exact hkeys p hp
  · exact hname
  · exact hkeys (p.1, y) hy

theorem Apart.set (hapart : Apart entries) (hname : name.isKey = true) (x : α) :
    Apart (setName entries name x) := by
  refine ⟨keys_setName hapart.1 hname, ?_⟩
  obtain ⟨hkeys, hpairwise⟩ := hapart
  induction entries with
  | nil => exact List.pairwise_singleton _ _
  | cons p entries ih =>
    obtain ⟨key, y⟩ := p
    rw [List.pairwise_cons] at hpairwise
    have ih := ih (fun p hp => hkeys p (List.mem_cons_of_mem _ hp)) hpairwise.2
    unfold setName
    split
    · exact List.pairwise_cons.2 ⟨hpairwise.1, hpairwise.2⟩
    · rename_i hsame
      refine List.pairwise_cons.2 ⟨?_, ih⟩
      intro q hq
      rcases mem_setName hq with hq | ⟨-, hq | ⟨-, z, hz⟩⟩
      · exact hpairwise.1 q hq
      · rw [hq]
        simpa using hsame
      · exact hpairwise.1 (q.1, z) hz

end Turnstile
