-- The settings of a configuration are checked where the file is loaded and once more by the host that
-- is set up with them. The host admits whatever was loaded and keeps it as it is, and loading itself
-- changes no more than the form of a number: a span of time becomes the nearest binary64 number.
import Mathlib
import Turnstile.Proofs.Config.Mapping
import Turnstile.Proofs.Number.Nearest
import Turnstile.Proofs.Supervisor.Window

namespace Turnstile

/-! ## What a host admits -/

theorem RestartPolicy.ofValue?_eq_some_iff {v : Value} {policy : RestartPolicy} :
    ofValue? v = some policy ↔ v = .text policy.text := by
  constructor
  · intro h
    unfold ofValue? at h
    split at h <;> cases h <;> rfl
  · rintro rfl
    cases policy <;> rfl

namespace Settings

variable {v : Value} {n : Number} {s : Settings}

theorem comparable_eq_ok_iff {comparison : String} :
    comparable comparison v = .ok n ↔ v = .number n := by
  unfold comparable
  cases v <;> simp

theorem aboveZero_eq_ok_iff {setting : String} :
    aboveZero setting v = .ok n ↔ v = .number n ∧ n.leRat 0 = false := by
  unfold aboveZero
  simp only [Config.bind_eq_ok_iff, comparable_eq_ok_iff]
  constructor
  · rintro ⟨m, rfl, h⟩
    split_ifs at h with hle
    · cases h
    · obtain rfl := Except.ok.inj h
      exact ⟨rfl, Bool.eq_false_of_not_eq_true hle⟩
  · rintro ⟨rfl, hle⟩
    exact ⟨n, rfl, by rw [hle]; rfl⟩

theorem notNegative_eq_ok_iff {setting : String} :
    notNegative setting v = .ok n ↔ v = .number n ∧ n.ltRat 0 = false := by
  unfold notNegative
  simp only [Config.bind_eq_ok_iff, comparable_eq_ok_iff]
  constructor
  · rintro ⟨m, rfl, h⟩
    split_ifs at h with hlt
    · cases h
    · obtain rfl := Except.ok.inj h
      exact ⟨rfl, Bool.eq_false_of_not_eq_true hlt⟩
  · rintro ⟨rfl, hlt⟩
    exact ⟨n, rfl, by rw [hlt]; rfl⟩

/-- Settings that a host admits: it asks that numbers are not at most zero, or not below zero. -/
structure Admitted (s : Settings) : Prop where
  shutdownTimeout : s.shutdownTimeout.leRat 0 = false
  maxRestarts : s.maxRestarts.ltRat 0 = false
  maxSeconds : s.maxSeconds.leRat 0 = false

/-- A host takes the values that it is given for its settings as they are. -/
theorem ofValues_eq_ok_iff {restart timeout restarts seconds : Value} :
    ofValues restart timeout restarts seconds = .ok s ↔
      s.Admitted ∧ restart = .text s.restart.text ∧ timeout = .number s.shutdownTimeout ∧
        restarts = .number s.maxRestarts ∧ seconds = .number s.maxSeconds := by
  unfold ofValues
  constructor
  · intro h
    cases hpolicy : RestartPolicy.ofValue? restart with
    | none =>
      rw [hpolicy] at h
      cases h
    | some policy =>
      simp only [hpolicy, Config.bind_eq_ok_iff, aboveZero_eq_ok_iff, notNegative_eq_ok_iff] at h
      obtain ⟨_, ⟨rfl, htimeout⟩, _, ⟨rfl, hrestarts⟩, _, ⟨rfl, hseconds⟩, h⟩ := h
      obtain rfl := Except.ok.inj h
      exact ⟨⟨htimeout, hrestarts, hseconds⟩, RestartPolicy.ofValue?_eq_some_iff.1 hpolicy, rfl, rfl, rfl⟩
  · rintro ⟨hadmitted, rfl, rfl, rfl, rfl⟩
    have hpolicy : RestartPolicy.ofValue? (.text s.restart.text) = some s.restart :=
      RestartPolicy.ofValue?_eq_some_iff.2 rfl
    simp only [hpolicy, Config.bind_eq_ok_iff, aboveZero_eq_ok_iff, notNegative_eq_ok_iff]
    exact ⟨_, ⟨rfl, hadmitted.shutdownTimeout⟩, _, ⟨rfl, hadmitted.maxRestarts⟩, _,
      ⟨rfl, hadmitted.maxSeconds⟩, rfl⟩

end Settings

namespace Config

variable {read : Reader} {p : Path} {fields : List (String × Value)} {c : Config} {v : Value}
  {n m : Number} {s : Settings}

/-! ## What loading makes of the settings -/

/-- What a value becomes as a span of time: a binary64 number is kept, and a whole number becomes the
nearest one. -/
inductive Span : Value → Number → Prop where
  | kept (x : Binary64) : Span (.float x) (.real x)
  | nearest {k : Int} {x : Binary64} {q : Rat} (h : x.IsNearest k q) : Span (.int k) (.real x)

/-- The settings that a record writes. Those it leaves out have their defaults. -/
structure Written (entries : List (String × Value)) (s : Settings) : Prop where
  shutdownTimeout :
    Span ((entries.lookup "shutdown_timeout").getD (.float (.ofDecimal false 5 0))) s.shutdownTimeout
  restart : (entries.lookup "restart").getD (.text "transient") = .text s.restart.text
  maxRestarts : (entries.lookup "max_restarts").getD (.int 3) = .number s.maxRestarts
  maxSeconds :
    Span ((entries.lookup "max_seconds").getD (.float (.ofDecimal false 5 0))) s.maxSeconds

/-- The settings that a `runtime` field writes. -/
inductive Runtime : Value → Settings → Prop where
  | absent : Runtime .null {}
  | written {entries : List (String × Value)} {s : Settings} (h : Written entries s) :
    Runtime (.record entries) s

/-- The number one in binary64. -/
def one : Binary64 := .finite false (2 ^ 52) (-52)

theorem one_isFinite : one.IsFinite where
  mantissa := by decide
  least := by decide
  greatest := by decide
  short h := absurd h (lt_irrefl _)

theorem toRat?_one : one.toRat? = some 1 := by
  rw [one, Binary64.toRat?_finite]
  norm_num [Binary64.magnitude]

/-- A span of time is converted to one that is above zero if it was, since a whole number above zero
is not below one. -/
theorem span_of_seconds (hn : IsDuration (.number n)) (h : seconds n = .ok m) :
    Span (.number n) m ∧ m.leRat 0 = false := by
  obtain ⟨_, hsame, hflag, hle⟩ := hn
  obtain rfl := Value.number.inj hsame
  unfold seconds at h
  cases n with
  | flag b => exact absurd rfl (hflag b)
  | real x =>
    obtain rfl := Except.ok.inj h
    exact ⟨.kept x, hle⟩
  | whole k =>
    cases hx : (Number.whole k).toBinary64? with
    | none =>
      rw [hx] at h
      cases h
    | some x =>
      rw [hx] at h
      obtain rfl := Except.ok.inj h
      obtain ⟨q, hnearest⟩ := Binary64.ofInt?_isNearest hx
      refine ⟨.nearest hnearest, ?_⟩
      have hpositive : ¬ (k : Rat) ≤ 0 := fun hle' => by
        rw [(Number.leRat_iff rfl).2 hle'] at hle
        cases hle
      have hone : (1 : Rat) ≤ k := by
        have hk : 0 < k := by exact_mod_cast not_le.1 hpositive
        exact_mod_cast hk
      have hq : 1 ≤ q := hnearest.le one_isFinite toRat?_one hone
      have hvalue : (Number.real x).toRat? = some q := hnearest.value
      rw [← Bool.not_eq_true, Number.leRat_iff hvalue]
      linarith

theorem count_eq {path key : String} (h : count path key v = .ok n) :
    v = .number n ∧ n.ltRat 0 = false := by
  unfold count at h
  simp only at h
  split at h
  · rename_i k
    split_ifs at h with hnegative
    obtain rfl := Except.ok.inj h
    refine ⟨rfl, decide_eq_false ?_⟩
    exact_mod_cast hnegative
  · cases h

theorem policy_eq {path : String} {restart : RestartPolicy} (h : policy path v = .ok restart) :
    v = .text restart.text := by
  unfold policy at h
  cases hpolicy : RestartPolicy.ofValue? v with
  | none =>
    rw [hpolicy] at h
    cases h
  | some other =>
    rw [hpolicy] at h
    obtain rfl := Except.ok.inj h
    exact RestartPolicy.ofValue?_eq_some_iff.1 hpolicy

theorem admitted_of_settingsOf {path : String} {timeout restart restarts window : Value}
    (h : settingsOf path timeout restart restarts window = .ok s) :
    s.Admitted ∧ Span timeout s.shutdownTimeout ∧ restart = .text s.restart.text ∧
      restarts = .number s.maxRestarts ∧ Span window s.maxSeconds := by
  unfold settingsOf at h
  simp only [bind_eq_ok_iff] at h
  obtain ⟨n, hn, policy, hpolicy, k, hk, m, hm, x, hx, y, hy, h⟩ := h
  obtain rfl := Except.ok.inj h
  obtain ⟨rfl, hn⟩ := positive_eq hn
  obtain ⟨rfl, hm⟩ := positive_eq hm
  obtain ⟨hx, hx'⟩ := span_of_seconds hn hx
  obtain ⟨hy, hy'⟩ := span_of_seconds hm hy
  obtain ⟨rfl, hk'⟩ := count_eq hk
  exact ⟨⟨hx', hk', hy'⟩, hx, policy_eq hpolicy, rfl, hy⟩

theorem admitted_default : ({} : Settings).Admitted where
  shutdownTimeout := by decide
  maxRestarts := by decide
  maxSeconds := by decide

/-- The settings of a `runtime` field are those it writes, and a host admits them. -/
theorem runtime_of_ok {path : String} (h : runtime path v = .ok s) : s.Admitted ∧ Runtime v s := by
  unfold runtime at h
  split at h
  · obtain rfl := Except.ok.inj h
    exact ⟨admitted_default, .absent⟩
  · obtain ⟨hadmitted, htimeout, hrestart, hrestarts, hwindow⟩ := admitted_of_settingsOf h
    exact ⟨hadmitted, .written ⟨htimeout, hrestart, hrestarts, hwindow⟩⟩
  · cases h

theorem host_of_admitted (h : c.settings.Admitted) (registry : Registry) :
    c.host registry = .ok { settings := c.settings, registry } := by
  have hvalues := Settings.ofValues_eq_ok_iff.2 ⟨h, rfl, rfl, rfl, rfl⟩
  unfold host
  simp only [hvalues]
  rfl

/-- Each configuration that comes of a mapping has a host, whose settings are its own; and these are
the ones that the `runtime` field writes, where whole numbers of seconds are the nearest binary64
numbers and what is left out has its default. -/
theorem a_loaded_configuration_has_a_host (read : Reader) (p : Path) (fields : List (String × Value))
    (c : Config) (registry : Registry) (hc : ofFields read p fields = .ok c) :
    c.host registry = .ok { settings := c.settings, registry } ∧
      Runtime (get fields "runtime") c.settings := by
  obtain ⟨hadmitted, hruntime⟩ := runtime_of_ok (runtime_of_ofFields hc)
  exact ⟨host_of_admitted hadmitted registry, hruntime⟩

/-- A timeout that lies between two binary64 numbers goes to the one with the even mantissa, a window
without an end is kept, and the number of restarts is the default. -/
theorem a_long_timeout_is_rounded :
    let entries : List (String × Value) := [("shutdown_timeout", .int (2 ^ 53 + 1)),
      ("restart", .text "temporary"), ("max_seconds", .float (.infinite false))]
    let fields : List (String × Value) :=
      [("name", .text "m"), ("diagram", .text "[*] --> a : go"), ("runtime", .record entries)]
    let settings : Settings :=
      ⟨.real (.finite false (2 ^ 52) 1), .temporary, .whole 3, .real (.infinite false)⟩
    ∃ c, ofFields (fun _ => .error (.raised .missingFile [])) (.ofText "c") fields = .ok c ∧
      c.settings = settings ∧ c.host [] = .ok { settings, registry := [] } ∧
      Runtime (.record entries) settings := by
  intro entries fields settings
  have hsettings : (ofFields (fun _ => .error (.raised .missingFile [])) (.ofText "c") fields).toOption.map
      (·.settings) = some settings := by
    decide +kernel
  cases hc : ofFields (fun _ => .error (.raised .missingFile [])) (.ofText "c") fields with
  | error fault =>
    rw [hc] at hsettings
    cases hsettings
  | ok c =>
    rw [hc] at hsettings
    have hsame : c.settings = settings := Option.some.inj hsettings
    have hlaw := a_loaded_configuration_has_a_host _ _ fields c [] hc
    rw [hsame] at hlaw
    exact ⟨c, rfl, hsame, hlaw⟩

end Config
end Turnstile
