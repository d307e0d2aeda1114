-- The budget of restarts: the supervisor remembers only those restarts of a name that still count,
-- and yet no window of time ever holds more of them than allowed, each is announced with the number
-- of those in its window, and none is refused before the window is full.
import Mathlib.Algebra.Order.Ring.Rat
import Mathlib.Tactic.Linarith
import Turnstile.Proofs.Supervisor.Holders

namespace Turnstile

/-! ## Numbers against rationals -/

theorem Binary64.ltRat_iff {x : Binary64} {q y : Rat} (hx : x.toRat? = some q) :
    x.ltRat y = true ↔ q < y := by
  cases x with
  | finite n m e =>
    obtain rfl := Option.some.inj hx
    exact decide_eq_true_iff
  | infinite negative => cases hx
  | nan => cases hx

theorem Binary64.gtRat_iff {x : Binary64} {q y : Rat} (hx : x.toRat? = some q) :
    x.gtRat y = true ↔ y < q := by
  cases x with
  | finite n m e =>
    obtain rfl := Option.some.inj hx
    exact decide_eq_true_iff
  | infinite negative => cases hx
  | nan => cases hx

theorem Number.gtRat_iff {n : Number} {q y : Rat} (hn : n.toRat? = some q) :
    n.gtRat y = true ↔ y < q := by
  cases n with
  | real x => exact Binary64.gtRat_iff hn
  | _ =>
    obtain rfl := Option.some.inj hn
    exact decide_eq_true_iff

theorem Number.leRat_iff {n : Number} {q y : Rat} (hn : n.toRat? = some q) :
    n.leRat y = true ↔ q ≤ y := by
  have hlt : n.ltRat y = true ↔ q < y := by
    cases n with
    | real x => exact Binary64.ltRat_iff hn
    | _ =>
      obtain rfl := Option.some.inj hn
      exact decide_eq_true_iff
  unfold leRat
  rw [Bool.or_eq_true, hlt, Number.eqRat_iff, hn, Option.some.injEq]
  exact le_iff_lt_or_eq.symm

/-! ## Times in a window -/

/-- The times less than `q` before now. -/
def within (q now : Rat) (times : List Rat) : List Rat := times.filter fun time => now - time < q

/-- What does not count any more never counts again. -/
theorem within_within {q now later : Rat} (h : now ≤ later) (times : List Rat) :
    within q later (within q now times) = within q later times := by
  unfold within
  rw [List.filter_filter]
  apply List.filter_congr
  intro x _
  by_cases hx : later - x < q
  · have hnow : now - x < q := by linarith
    simp [hx, hnow]
  · simp [hx]

theorem within_concat {q : Rat} (hq : 0 < q) (now : Rat) (times : List Rat) :
    within q now (times ++ [now]) = within q now times ++ [now] := by
  simp [within, List.filter_append, hq]

/-- Looking back from earlier, no fewer times count. -/
theorem length_within_mono {q now later : Rat} (h : now ≤ later) (times : List Rat) :
    (within q later times).length ≤ (within q now times).length := by
  unfold within
  rw [← List.countP_eq_length_filter, ← List.countP_eq_length_filter]
  apply List.countP_mono_left
  intro x _ hx
  simp only [decide_eq_true_eq] at hx ⊢
  linarith

/-- Up to each time, no more than `m` times are less than `q` before it. -/
def Sparse (m : Nat) (q : Rat) (times : List Rat) : Prop :=
  ∀ before x after, times = before ++ x :: after → (within q x (before ++ [x])).length ≤ m

theorem Sparse.concat {m : Nat} {q x : Rat} {times : List Rat} (h : Sparse m q times)
    (hx : (within q x (times ++ [x])).length ≤ m) : Sparse m q (times ++ [x]) := by
  intro before y after heq
  rcases List.eq_nil_or_concat after with rfl | ⟨after, z, rfl⟩
  · obtain ⟨rfl, hlast⟩ := List.append_inj' heq rfl
    obtain rfl : x = y := List.singleton_inj.1 hlast
    exact hx
  · have hsplit : times ++ [x] = (before ++ y :: after) ++ [z] := by simpa using heq
    exact h before y after (List.append_inj' hsplit rfl).1

theorem Sparse.of_concat {m : Nat} {q x : Rat} {times : List Rat} (h : Sparse m q (times ++ [x])) :
    Sparse m q times := by
  rintro before y after rfl
  exact h before y (after ++ [x]) (by simp)

theorem Sparse.upTo {m : Nat} {q : Rat} {times : List Rat} (h : Sparse m q times) (i : Nat)
    (hi : i < times.length) : (within q times[i] (times.take (i + 1))).length ≤ m := by
  have hsplit := (List.take_append_drop i times).symm
  rw [List.drop_eq_getElem_cons hi] at hsplit
  have hfew := h _ _ _ hsplit
  rwa [← List.take_succ_eq_append_getElem hi] at hfew

/-- Where no time has too many before it, no window has too many in it. -/
theorem Sparse.window {m : Nat} {q : Rat} {times : List Rat} (h : Sparse m q times) (a : Rat) :
    (times.filter fun x => a ≤ x ∧ x < a + q).length ≤ m := by
  induction times using List.reverseRecOn with
  | nil => exact Nat.zero_le m
  | append_singleton times x ih =>
    by_cases hx : a ≤ x ∧ x < a + q
    · -- the last time of the window sees all the others
      refine le_trans ?_ (h times x [] rfl)
      unfold within
      rw [← List.countP_eq_length_filter, ← List.countP_eq_length_filter]
      apply List.countP_mono_left
      intro y _ hy
      simp only [decide_eq_true_eq] at hy ⊢
      linarith [hy.1, hx.2]
    · rw [List.filter_append, List.filter_singleton]
      simpa [hx] using ih h.of_concat

namespace Roster

variable {slips : Prop} {r r' : Roster} {t : Nat} {e : Entry} {name other : Value} {m : Nat}
  {q : Rat} {times : List Rat}

/-! ## Restarts as they are seen -/

/-- What a new entry adds to the times of the restarts of a name: one that comes without a number
is a restart, and one with a number begins anew. -/
def noteEntry (name : Value) (clock : Rat) (new : Option Entry) (times : List Rat) : List Rat :=
  match new with
  | some e =>
    if e.supervised && e.name.same name then
      match e.number with
      | none => times ++ [clock]
      | some _ => []
    else times
  | none => times

theorem recent_count (hkeys : ∀ p ∈ r.restarts, p.1.isKey = true) (hother : other.isKey = true) :
    (r.count other times).recent name = if other.same name then
      times.filter fun time => r.settings.maxSeconds.gtRat (r.clock - time) else r.recent name := by
  unfold recent count
  simp only
  rw [lookupName_setName hkeys hother]
  split <;> rfl

/-- A supervisor that restarts, at most `m` times in less than `q` seconds. -/
structure Bounded (settings : Settings) (m : Nat) (q : Rat) : Prop where
  policy : settings.restart = .transient
  restarts : settings.maxRestarts.toRat? = some (m : Rat)
  seconds : settings.maxSeconds.toRat? = some q
  positive : 0 < q

theorem counts_eq (hbounded : Bounded r.settings m q) (times : List Rat) :
    times.filter (fun time => r.settings.maxSeconds.gtRat (r.clock - time)) =
      within q r.clock times := by
  unfold within
  apply List.filter_congr
  intro x _
  rw [Bool.eq_iff_iff, Number.gtRat_iff hbounded.seconds, decide_eq_true_iff]

/-- What the supervisor remembers of a name is what still counts of the times of its restarts. -/
structure Counted (r : Roster) (m : Nat) (q : Rat) (name : Value) (times : List Rat) : Prop where
  bounded : Bounded r.settings m q
  keys : ∀ p ∈ r.restarts, p.1.isKey = true
  past : ∀ x ∈ times, x ≤ r.clock
  sorted : times.Pairwise (· ≤ ·)
  recent : r.recent name = within q r.clock times
  sparse : Sparse m q times

theorem Counted.frame (h : r.Counted m q name times) (hsettings : r'.settings = r.settings)
    (hclock : r'.clock = r.clock) (hrestarts : r'.restarts = r.restarts) :
    r'.Counted m q name times where
  bounded := hsettings ▸ h.bounded
  keys := hrestarts ▸ h.keys
  past := hclock ▸ h.past
  sorted := h.sorted
  recent := by
    rw [hclock, ← h.recent]
    unfold Roster.recent
    rw [hsettings, hclock, hrestarts]
  sparse := h.sparse

theorem Counted.pass (h : r.Counted m q name times) {time : Rat} (htime : r.clock ≤ time) :
    ({ r with clock := time } : Roster).Counted m q name times where
  bounded := h.bounded
  keys := h.keys
  past x hx := le_trans (h.past x hx) htime
  sorted := h.sorted
  recent := by
    have hbounded : Bounded ({ r with clock := time } : Roster).settings m q := h.bounded
    have hrecent := h.recent
    unfold Roster.recent at hrecent ⊢
    rw [counts_eq h.bounded] at hrecent
    rw [counts_eq hbounded]
    show within q time _ = within q time times
    rw [← within_within htime, ← within_within htime times, hrecent]
  sparse := h.sparse

/-- The restarts of another name change nothing. -/
theorem Counted.count_other (h : r.Counted m q name times) (hother : other.isKey = true)
    (hdiff : ¬ other.same name = true) (kept : List Rat) :
    (r.count other kept).Counted m q name times where
  bounded := h.bounded
  keys := keys_setName h.keys hother
  past := h.past
  sorted := h.sorted
  recent := by
    rw [recent_count h.keys hother, if_neg hdiff]
    exact h.recent
  sparse := h.sparse

/-- The times of a name are remembered as far as they count. -/
theorem Counted.count_same {old : List Rat} (h : r.Counted m q name old)
    (hother : other.isKey = true)
    (hsame : other.same name = true) (hpast : ∀ x ∈ times, x ≤ r.clock)
    (hsorted : times.Pairwise (· ≤ ·)) (hsparse : Sparse m q times) {kept : List Rat}
    (hkept : within q r.clock kept = within q r.clock times) :
    (r.count other kept).Counted m q name times where
  bounded := h.bounded
  keys := keys_setName h.keys hother
  past := hpast
  sorted := hsorted
  recent := by
    rw [recent_count h.keys hother, if_pos hsame, counts_eq h.bounded]
    exact hkept
  sparse := hsparse

/-- What a move adds to the times of the restarts of a name. -/
def noted (r r' : Roster) (name : Value) (times : List Rat) : List Rat :=
  noteEntry name r.clock r'.entries[r.entries.length]? times

theorem still_eq (hlength : r'.entries.length = r.entries.length) :
    r.noted r' name times = times := by
  unfold noted
  rw [List.getElem?_eq_none (Nat.le_of_eq hlength)]
  rfl

theorem came_eq (hentries : r'.entries = r.entries ++ [e]) :
    r.noted r' name times = noteEntry name r.clock (some e) times := by
  unfold noted
  rw [hentries, List.getElem?_concat_length]

theorem Counted.still (hlength : r'.entries.length = r.entries.length)
    (h : r'.Counted m q name times) : r'.Counted m q name (r.noted r' name times) :=
  (still_eq hlength).symm ▸ h

theorem Counted.came (hentries : r'.entries = r.entries ++ [e])
    (h : r'.Counted m q name (noteEntry name r.clock (some e) times)) :
    r'.Counted m q name (r.noted r' name times) := (came_eq hentries).symm ▸ h

theorem noteEntry_other (hdiff : ¬ e.name.same name = true) (clock : Rat) (times : List Rat) :
    noteEntry name clock (some e) times = times := by
  simp [noteEntry, hdiff]

/-- A restart is the last of its times, and the window was not full. -/
theorem Counted.restarted (h : r.Counted m q name times) (hother : other.isKey = true)
    (hsame : other.same name = true) (hrecent : r.recent other = r.recent name)
    (hcount : r.settings.maxRestarts.leRat (r.recent other).length = false) :
    (r.count other (r.recent other ++ [r.clock])).Counted m q name (times ++ [r.clock]) := by
  have hpositive := h.bounded.positive
  have hfew : (within q r.clock times).length < m := by
    rw [← h.recent, ← hrecent]
    by_contra hfull
    have hle : (m : Rat) ≤ ((r.recent other).length : Rat) := by
      exact_mod_cast Nat.le_of_not_lt hfull
    rw [(Number.leRat_iff h.bounded.restarts).2 hle] at hcount
    cases hcount
  refine h.count_same hother hsame ?_ ?_ ?_ ?_
  · intro x hx
    rcases List.mem_append.1 hx with hx | hx
    · exact h.past x hx
    · exact le_of_eq (List.mem_singleton.1 hx)
  · refine List.pairwise_append.2 ⟨h.sorted, List.pairwise_singleton _ _, ?_⟩
    intro x hx y hy
    rw [List.mem_singleton.1 hy]
    exact h.past x hx
  · apply h.sparse.concat
    rw [within_concat hpositive, List.length_append, List.length_singleton]
    exact hfew
  · rw [within_concat hpositive, within_concat hpositive, hrecent, h.recent,
      within_within le_rfl]

theorem recent_congr (hkeys : ∀ p ∈ r.restarts, p.1.isKey = true) (hother : other.isKey = true)
    (hsame : other.same name = true) : r.recent other = r.recent name := by
  unfold Roster.recent
  rw [lookupName_congr hkeys hother hsame]

/-- Every move keeps count of the restarts of a name. -/
theorem Counted.next (h : r.Counted m q name times) (horderly : r.Orderly)
    (hclock : r.clock ≤ r'.clock) (hnext : r.Next False r') :
    r'.Counted m q name (r.noted r' name times) := by
  cases hnext with
  | same =>
    refine .still rfl ?_
    exact h
  | pass time =>
    refine .still rfl ?_
    exact h.pass hclock
  | turn =>
    refine .still rfl ?_
    exact h.frame rfl rfl rfl
  | proceed he hgoing halive ending =>
    refine .still (List.length_set ..) ?_
    exact h.frame rfl rfl rfl
  | finish he hgoing hover =>
    refine .still (List.length_set ..) ?_
    exact h.frame rfl rfl rfl
  | create machine other payload number =>
    refine .came rfl ?_
    exact h.frame rfl rfl rfl
  | forget hslips hkey hfree => exact hslips.elim
  | @start machine other payload number hkey hfree =>
    refine .came rfl ?_
    by_cases hsame : other.same name = true
    · have hbegins : (r.count other []).Counted m q name [] :=
        h.count_same hkey hsame (fun _ hx => by cases hx) .nil
          (fun before x after heq => by simp at heq) rfl
      have hnoted : noteEntry name r.clock
          (some (.new machine other payload (some number) true)) times = [] := by
        simp [noteEntry, Entry.new, hsame]
      rw [hnoted]
      exact hbegins.frame rfl rfl rfl
    · rw [noteEntry_other hsame]
      exact (h.count_other hkey hsame []).frame rfl rfl rfl
  | leave hexits he hcalm =>
    refine .still rfl ?_
    exact h.frame rfl rfl rfl
  | @refuse t rest e hexits he hcount =>
    refine .still rfl ?_
    have hkey := horderly.exit_isKey (hexits ▸ List.mem_cons_self) he
    by_cases hsame : e.name.same name = true
    · have hkept : (r.count e.name (r.recent e.name)).Counted m q name times := by
        refine h.count_same hkey hsame h.past h.sorted h.sparse ?_
        rw [recent_congr h.keys hkey hsame, h.recent, within_within le_rfl]
      exact hkept.frame rfl rfl rfl
    · exact (h.count_other hkey hsame _).frame rfl rfl rfl
  | @restart t rest e fault hexits he hfailed hpolicy hfree hcount =>
    refine .came rfl ?_
    have hkey := horderly.exit_isKey (hexits ▸ List.mem_cons_self) he
    by_cases hsame : e.name.same name = true
    · have hnoted : noteEntry name r.clock
          (some (.new e.machine e.name e.payload none true)) times = times ++ [r.clock] := by
        simp [noteEntry, Entry.new, hsame]
      rw [hnoted]
      exact (h.restarted hkey hsame (recent_congr h.keys hkey hsame) hcount).frame rfl rfl rfl
    · rw [noteEntry_other (e := .new e.machine e.name e.payload none true) hsame]
      exact (h.count_other hkey hsame _).frame rfl rfl rfl

/-- Only a task that comes without a number adds to the times. -/
theorem restart_of_noted {now : Rat} (hnoted : r.noted r' name times = times ++ [now]) :
    now = r.clock ∧ ∃ e, r'.entries[r.entries.length]? = some e ∧ e.supervised = true ∧
      e.name.same name = true ∧ e.number = none := by
  have hno : times ≠ times ++ [now] := by simp
  unfold noted noteEntry at hnoted
  split at hnoted
  · rename_i e he
    split at hnoted
    · rename_i hwhose
      rw [Bool.and_eq_true] at hwhose
      split at hnoted
      · rename_i hnumber
        obtain ⟨-, hlast⟩ := List.append_inj' hnoted rfl
        exact ⟨(List.singleton_inj.1 hlast).symm, e, he, hwhose.1, hwhose.2, hnumber⟩
      · simp at hnoted
    · exact absurd hnoted hno
  · exact absurd hnoted hno

/-- A restart is announced with the number of the restarts in its window. -/
theorem Counted.announced (h : r.Counted m q name times) (horderly : r.Orderly)
    (hnext : r.Next slips r') {now : Rat} (hnoted : r.noted r' name times = times ++ [now]) :
    ∃ key : Value, key.same name = true ∧ r'.announcements =
      r.announcements ++ [(key, (within q now (times ++ [now])).length)] := by
  obtain ⟨rfl, e, he, hsupervised, hsame, hnumber⟩ := restart_of_noted hnoted
  obtain ⟨t, rest, d, hexits, hd, rfl, rfl⟩ := hnext.of_came he hsupervised hnumber
  have hkey := horderly.exit_isKey (hexits ▸ List.mem_cons_self) hd
  refine ⟨d.name, hsame, ?_⟩
  rw [within_concat h.bounded.positive, recent_congr h.keys hkey hsame, h.recent,
    List.length_append, List.length_singleton]

/-- The end of the holder of a name becomes known, it had crashed, and there is no restart: the
window is full. -/
theorem Counted.refused (h : r.Counted m q name times) (horderly : r.Orderly)
    (hnext : r.Next False r') {rest : List Nat} (hexits : r.exits = t :: rest)
    (hexits' : r'.exits = rest) (he : r.entries[t]? = some e) {fault : Fault}
    (hfailed : e.ending = some (.failed fault)) (hheld : lookupName r.holders name = some t)
    (hnone : r'.entries.length = r.entries.length) : m ≤ (within q r.clock times).length := by
  have hsame := horderly.name_of_holder hheld he
  have hkey := horderly.exit_isKey (hexits ▸ List.mem_cons_self) he
  rcases hnext.of_crash horderly hexits hexits' he hfailed hheld h.bounded.policy with
    hcount | hheir
  · have hfull := (Number.leRat_iff h.bounded.restarts).1 hcount
    rw [recent_congr h.keys hkey hsame, h.recent] at hfull
    exact_mod_cast hfull
  · rw [hheir] at hnone
    simp at hnone

/-! ## As long as a task holds a name -/

theorem lookup_spawn (horderly : r.Orderly) (hkey : e.name.isKey = true) :
    lookupName (r.spawn e).holders name =
      if e.name.same name then some r.entries.length else lookupName r.holders name :=
  lookupName_setName horderly.apart.1 hkey

theorem lookup_vacate (horderly : r.Orderly) (hkey : other.isKey = true) {u : Nat}
    (rest : List Nat) (hlost : lookupName r.holders name ≠ some t) :
    lookupName (r.vacate u other rest).holders name ≠ some t := by
  unfold vacate
  simp only
  split
  · rw [lookupName_eraseName horderly.apart.1 hkey]
    split
    · nofun
    · exact hlost
  · exact hlost

theorem lookup_spawn_ne (horderly : r.Orderly) (hkey : e.name.isKey = true)
    (hlt : t < r.entries.length) (hlost : lookupName r.holders name ≠ some t) :
    lookupName (r.spawn e).holders name ≠ some t := by
  rw [lookup_spawn horderly hkey]
  split
  · intro hnew
    exact absurd (Option.some.inj hnew) (Nat.ne_of_gt hlt)
  · exact hlost

/-- A task that does not hold a name never comes to hold it. -/
theorem lookup_next (horderly : r.Orderly) (hnext : r.Next slips r') (hlt : t < r.entries.length)
    (hlost : lookupName r.holders name ≠ some t) : lookupName r'.holders name ≠ some t := by
  cases hnext with
  | start machine payload number hkey hfree =>
    exact lookup_spawn_ne (horderly.count _ _) hkey hlt hlost
  | leave hexits he hcalm =>
    exact lookup_vacate horderly (horderly.exit_isKey (hexits ▸ List.mem_cons_self) he) _ hlost
  | @refuse u rest d hexits he hcount =>
    exact lookup_vacate horderly (horderly.exit_isKey (hexits ▸ List.mem_cons_self) he) rest hlost
  | @restart u rest d fault hexits he hfailed hpolicy hfree hcount =>
    have hkey := horderly.exit_isKey (hexits ▸ List.mem_cons_self) he
    have hvacated := (horderly.vacate hexits he).count d.name (r.recent d.name ++ [r.clock])
    exact lookup_spawn_ne hvacated hkey hlt (lookup_vacate horderly hkey rest hlost)
  | _ => exact hlost

/-- As long as a task holds a name, the name is not restarted. -/
theorem noted_held (horderly : r.Orderly) (hnext : r.Next slips r')
    (hheld : lookupName r.holders name = some t) (hheld' : lookupName r'.holders name = some t) :
    r.noted r' name times = times := by
  obtain ⟨key, hmem, -⟩ := mem_of_lookupName hheld
  have hlt := horderly.stored_lt hmem
  have hother : ∀ {r₁ : Roster} {e : Entry}, r₁.Orderly → r₁.entries = r.entries →
      e.name.isKey = true → lookupName (r₁.spawn e).holders name = some t →
      ¬ e.name.same name = true := by
    intro r₁ e horderly₁ hentries hkey hspawned hsame
    rw [lookup_spawn horderly₁ hkey, if_pos hsame, hentries] at hspawned
    exact absurd (Option.some.inj hspawned) (Nat.ne_of_gt hlt)
  cases hnext with
  | create machine other payload number => exact (came_eq rfl).trans rfl
  | @start machine other payload number hkey hfree =>
    refine (came_eq rfl).trans (noteEntry_other ?_ _ _)
    exact hother (horderly.count _ _) rfl hkey hheld'
  | @restart u rest d fault hexits he hfailed hpolicy hfree hcount =>
    have hkey := horderly.exit_isKey (hexits ▸ List.mem_cons_self) he
    refine (came_eq rfl).trans (noteEntry_other ?_ _ _)
    exact hother ((horderly.vacate hexits he).count d.name (r.recent d.name ++ [r.clock])) rfl hkey
      hheld'
  | proceed => exact still_eq (List.length_set ..)
  | finish => exact still_eq (List.length_set ..)
  | _ => exact still_eq rfl

end Roster

namespace Host

variable {h h' h₀ : Host} {t : Nat} {task : Task} {name : Value} {m : Nat} {q : Rat}
  {times : List Rat}

/-! ## Runs -/

/-- What a deed adds to the times of the restarts of a name: a supervised task that comes without
a number is a restart, and one that was handed out begins anew. -/
def noteTask (name : Value) (h h' : Host) (times : List Rat) : List Rat :=
  match h'.task? h.tasks.length with
  | some task =>
    if task.supervised && task.inst.name.same name then
      match task.number with
      | none => times ++ [h.clock]
      | some _ => []
    else times
  | none => times

/-- The times of the restarts of a name since it was last started, after some deeds. -/
def restartTimes (name : Value) (h : Host) : List Rat → List Deed → List Rat
  | times, [] => times
  | times, d :: deeds => restartTimes name (h.act d) (noteTask name h (h.act d) times) deeds

/-- The clock never goes back. -/
def Forward (h : Host) : List Deed → Prop
  | [] => True
  | d :: deeds => h.clock ≤ (h.act d).clock ∧ (h.act d).Forward deeds

instance decidableForward (h : Host) : (deeds : List Deed) → Decidable (h.Forward deeds)
  | [] => .isTrue trivial
  | d :: deeds =>
    have := decidableForward (h.act d) deeds
    inferInstanceAs (Decidable (h.clock ≤ (h.act d).clock ∧ (h.act d).Forward deeds))

/-- The restarts that are to be announced, with their numbers. -/
def announcements (h : Host) : List (Value × Nat) := h.ready.filterMap Job.announce?

theorem noteTask_eq (h h' : Host) (name : Value) (times : List Rat) :
    noteTask name h h' times = h.roster.noted h'.roster name times := by
  unfold noteTask Roster.noted
  rw [entries_get?, length_entries]
  cases h'.task? h.tasks.length <;> rfl

theorem restartTimes_append (name : Value) (h : Host) (times : List Rat) (deeds more : List Deed) :
    restartTimes name h times (deeds ++ more) =
      restartTimes name (h.after deeds) (restartTimes name h times deeds) more := by
  induction deeds generalizing h times with
  | nil => rfl
  | cons d deeds ih => exact ih (h.act d) _

theorem Forward.of_append {deeds more : List Deed} (hforward : h.Forward (deeds ++ more)) :
    h.Forward deeds ∧ (h.after deeds).Forward more := by
  induction deeds generalizing h with
  | nil => exact ⟨trivial, hforward⟩
  | cons d deeds ih =>
    obtain ⟨hclock, hrest⟩ := hforward
    have ⟨hdeeds, hmore⟩ := ih hrest
    exact ⟨⟨hclock, hdeeds⟩, hmore⟩

/-- Every run in which the clock does not go back keeps count of the restarts. -/
theorem counted_after (hsteady : h.Steady) (horderly : h.roster.Orderly)
    (hcounted : h.roster.Counted m q name times) {deeds : List Deed} (hforward : h.Forward deeds)
    (hsound : ∀ d ∈ deeds, ¬ d.Slips) :
    (h.after deeds).roster.Counted m q name (restartTimes name h times deeds) := by
  induction deeds generalizing h times with
  | nil => exact hcounted
  | cons d deeds ih =>
    have hmoves := moves_act hsteady d
    have hslips : d.Slips = False := eq_false (hsound d List.mem_cons_self)
    rw [hslips] at hmoves
    refine ih (hmoves.steady hsteady) (horderly.next hmoves.next) ?_ hforward.2
      fun d' hd' => hsound d' (List.mem_cons_of_mem _ hd')
    rw [noteTask_eq]
    exact hcounted.next horderly hforward.1 hmoves.next

theorem Forward.clock_le {deeds : List Deed} (hforward : h.Forward deeds) :
    h.clock ≤ (h.after deeds).clock := by
  induction deeds generalizing h with
  | nil => exact le_rfl
  | cons d deeds ih => exact le_trans hforward.1 (ih hforward.2)

theorem lost_after (hsteady : h.Steady) (horderly : h.roster.Orderly)
    (hlt : t < h.roster.entries.length) (hlost : lookupName h.holders name ≠ some t)
    (deeds : List Deed) : lookupName (h.after deeds).holders name ≠ some t := by
  have hkept := after_keeps_roster (P := fun r => r.Orderly ∧ t < r.entries.length ∧
    lookupName r.holders name ≠ some t) ?_ hsteady ⟨horderly, hlt, hlost⟩ deeds
  · exact hkept.2.2
  · rintro slips r r' ⟨horderly, hlt, hlost⟩ hnext
    obtain ⟨e', he', -⟩ := hnext.entry (List.getElem?_eq_getElem hlt)
    exact ⟨horderly.next hnext, (List.getElem?_eq_some_iff.1 he').1,
      Roster.lookup_next horderly hnext hlt hlost⟩

/-- As long as a task holds a name, the times of the restarts of the name stay. -/
theorem restartTimes_held (hsteady : h.Steady) (horderly : h.roster.Orderly) {deeds : List Deed}
    (hheld : lookupName h.holders name = some t)
    (hheld' : lookupName (h.after deeds).holders name = some t) :
    restartTimes name h times deeds = times := by
  induction deeds generalizing h with
  | nil => rfl
  | cons d deeds ih =>
    have hmoves := moves_act hsteady d
    have hsteady' := hmoves.steady hsteady
    have horderly' := horderly.next hmoves.next
    obtain ⟨key, hmem, -⟩ := mem_of_lookupName hheld
    obtain ⟨e', he', -⟩ :=
      hmoves.next.entry (List.getElem?_eq_getElem (horderly.stored_lt hmem))
    have hbetween : lookupName (h.act d).holders name = some t := by
      by_contra hlost
      exact lost_after hsteady' horderly' (List.getElem?_eq_some_iff.1 he').1 hlost deeds hheld'
    have hnoted : noteTask name h (h.act d) times = times :=
      (noteTask_eq ..).trans (Roster.noted_held horderly hmoves.next hheld hbetween)
    show restartTimes name (h.act d) (noteTask name h (h.act d) times) deeds = times
    rw [hnoted]
    exact ih hsteady' horderly' hbetween hheld'

/-! ## The law of the budget -/

/-- The restarts of a name keep to their budget: `m` in less than `q` seconds. -/
structure InBudget (h₀ : Host) (deeds : List Deed) (m : Nat) (q : Rat) (name : Value) : Prop where
  sorted : (restartTimes name h₀ [] deeds).Pairwise (· ≤ ·)
  /-- At each restart, at most `m` of the restarts so far lie less than `q` seconds back. -/
  spaced : ∀ i (hi : i < (restartTimes name h₀ [] deeds).length),
    (within q (restartTimes name h₀ [] deeds)[i]
      ((restartTimes name h₀ [] deeds).take (i + 1))).length ≤ m
  /-- No window of `q` seconds has more than `m` of them in it. -/
  window : ∀ a, ((restartTimes name h₀ [] deeds).filter fun x => a ≤ x ∧ x < a + q).length ≤ m
  /-- Each restart is announced with the number of those that lie less than `q` seconds back. -/
  announced : ∀ before d later now, deeds = before ++ d :: later →
    restartTimes name h₀ [] (before ++ [d]) = restartTimes name h₀ [] before ++ [now] →
    ∃ key : Value, key.same name = true ∧ ((h₀.after before).act d).announcements =
      (h₀.after before).announcements ++
        [(key, (within q now (restartTimes name h₀ [] (before ++ [d]))).length)]
  /-- The end of a crashed holder becomes known and there is no restart: at every moment since it
  held the name, and so when it crashed, `m` restarts lay less than `q` seconds back. -/
  refused : ∀ before later, deeds = before ++ later → ∀ t rest task fault,
    lookupName (h₀.after before).holders name = some t →
    (h₀.after deeds).running = none → (h₀.after deeds).batch = .exited t :: rest →
    (h₀.after deeds).task? t = some task → task.inst.phase = .finished (.failed fault) →
    lookupName (h₀.after deeds).holders name = some t →
    ((h₀.after deeds).act .step).tasks.length = (h₀.after deeds).tasks.length →
    (∀ x ∈ restartTimes name h₀ [] deeds, x ≤ (h₀.after before).clock) ∧
      m ≤ (within q (h₀.after before).clock (restartTimes name h₀ [] deeds)).length

theorem counted_opened {settings : Settings} (hbounded : Roster.Bounded settings m q)
    (registry : Registry) (bus : Bus Observer) :
    (opened settings registry bus).roster.Counted m q name [] where
  bounded := hbounded
  keys := nofun
  past := nofun
  sorted := .nil
  recent := rfl
  sparse before x after heq := by simp at heq

theorem step_exits {rest : List Job} (hsteady : h.Steady) (hrunning : h.running = none)
    (hbatch : h.batch = .exited t :: rest) :
    (h.act .step).roster.exits = (rest ++ h.ready).filterMap Job.exit? := by
  have hstep : h.act .step = ({ h with batch := rest } : Host).exited t :=
    step_job hrunning hbatch
  have hlt := hsteady.exits t (exits_of_batch hbatch ▸ List.mem_cons_self)
  rw [length_entries] at hlt
  rw [hstep, exits_exited rest hlt]

/-- Whatever happens, as long as the clock does not go back and starts are asked for with machines
or their names, the restarts of every name keep to their budget. -/
theorem restarts_keep_to_their_budget (settings : Settings) (registry : Registry)
    (bus : Bus Observer) {m : Nat} {q : Rat} (hbounded : Roster.Bounded settings m q)
    {deeds : List Deed} (hforward : (opened settings registry bus).Forward deeds)
    (hsound : ∀ d ∈ deeds, ¬ d.Slips) (name : Value) :
    InBudget (opened settings registry bus) deeds m q name := by
  have hsteady := steady_opened settings registry bus
  have horderly := orderly_opened settings registry bus
  have hbegins : (opened settings registry bus).roster.Counted m q name [] :=
    counted_opened hbounded registry bus
  have hcounted := counted_after hsteady horderly hbegins hforward hsound
  have hbefore : ∀ {before later}, deeds = before ++ later →
      ((opened settings registry bus).after before).roster.Counted m q name
        (restartTimes name (opened settings registry bus) [] before) := by
    rintro before later rfl
    exact counted_after hsteady horderly hbegins hforward.of_append.1
      fun d hd => hsound d (List.mem_append_left _ hd)
  refine ⟨hcounted.sorted, hcounted.sparse.upTo, hcounted.sparse.window, ?_, ?_⟩
  · intro before d later now hdeeds hrestart
    have hmoves := moves_act (steady_after hsteady before) d
    have hnoted := hrestart
    rw [restartTimes_append] at hnoted
    have hnoted := (noteTask_eq ..).symm.trans hnoted
    obtain ⟨key, hsame, hannounced⟩ := (hbefore hdeeds).announced
      (orderly_after hsteady horderly before) hmoves.next hnoted
    exact ⟨key, hsame, hrestart ▸ hannounced⟩
  · intro before later hdeeds t rest task fault hheld hrunning hbatch ht hphase hheld' hnone
    have hsteady' := steady_after hsteady deeds
    have hmoves := moves_act hsteady' .step
    have hfailed : task.entry.ending = some (.failed fault) := by
      simp [Task.entry, Instance.ending, hphase]
    have hfull := hcounted.refused (orderly_after hsteady horderly deeds) hmoves.next
      (exits_of_batch hbatch) (step_exits hsteady' hrunning hbatch) (entry_of_task ht) hfailed hheld'
      (by rw [length_entries, length_entries, hnone])
    have hafter : (opened settings registry bus).after deeds =
        ((opened settings registry bus).after before).after later := by
      rw [hdeeds, after_append]
    have htimes : restartTimes name (opened settings registry bus) [] deeds =
        restartTimes name (opened settings registry bus) [] before := by
      rw [hdeeds, restartTimes_append]
      exact restartTimes_held (steady_after hsteady before) (orderly_after hsteady horderly before)
        hheld (hafter ▸ hheld')
    have hclock : ((opened settings registry bus).after before).clock ≤
        ((opened settings registry bus).after deeds).clock := by
      rw [hafter]
      exact (hdeeds ▸ hforward).of_append.2.clock_le
    refine ⟨fun x hx => (hbefore hdeeds).past x (htimes ▸ hx), ?_⟩
    exact le_trans hfull (length_within_mono hclock _)

/-- An instance that crashes at every event is restarted once, when one restart in five seconds is
allowed; the second crash is the last one. -/
theorem one_restart_is_allowed :
    let machine := Machine.ofTable "t" ⟨"a", [⟨"a", "go", .state "a"⟩], []⟩
      { onTransition := some ⟨.rules, fun _ _ => { result := .error (.plain .exhausted "") }⟩ }
    let h := opened ⟨.whole 5, .transient, .whole 1, .whole 5⟩ [] {}
    let crash := Deed.send ⟨.text "x", .text "go", .null⟩ :: List.replicate 16 .step
    let deeds := .start (.given machine) (.text "x") .null :: crash ++ .pass 2 :: crash
    restartTimes (.text "x") h [] deeds = [0] ∧
      (h.after deeds).names.isEmpty = true ∧ InBudget h deeds 1 5 (.text "x") := by
  intro machine h crash deeds
  have hbounded : Roster.Bounded h.settings 1 5 := ⟨rfl, rfl, rfl, by decide +kernel⟩
  have hforward : h.Forward deeds := by decide +kernel
  have hsound : ∀ d ∈ deeds, ¬ d.Slips := by
    simp [deeds, crash, Deed.Slips, MachineChoice.IsOther]
  refine ⟨by decide +kernel, by decide +kernel, ?_⟩
  exact restarts_keep_to_their_budget _ [] {} hbounded hforward hsound (.text "x")

/-- An instance crashes, and its task is cancelled while the terminate hook waits: there is no
restart, though none was made before and three are allowed. -/
theorem a_crash_cut_short_is_not_restarted :
    let machine := Machine.ofTable "t" ⟨"a", [⟨"a", "go", .state "a"⟩], []⟩
      { onTransition := some ⟨.rules, fun _ _ => { result := .error (.plain .exhausted "") }⟩
        onTerminate := some ⟨.rules, fun _ _ => { result := .ok (), pause := .seconds (.whole 10) }⟩ }
    let h := opened ⟨.whole 5, .transient, .whole 3, .whole 5⟩ [] {}
    let deeds := .start (.given machine) (.text "x") .null ::
      .send ⟨.text "x", .text "go", .null⟩ :: List.replicate 12 .step
    let later := (h.after deeds).after (.cancel 0 :: List.replicate 12 .step)
    (((h.after deeds).task? 0).bind (·.inst.stopReason) = some .crash) ∧
      lookupName (h.after deeds).holders (.text "x") = some 0 ∧
      restartTimes (.text "x") h [] deeds = [] ∧
      later.isIdle = true ∧ later.tasks.length = 1 ∧ later.names.isEmpty = true := by
  intro machine h deeds later
  refine ⟨?_, ?_, ?_, ?_, ?_, ?_⟩ <;> decide +kernel

end Host
end Turnstile
