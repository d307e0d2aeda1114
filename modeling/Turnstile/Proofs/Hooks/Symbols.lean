-- What a dotted path leads to: a symbol of a module, the module below it of that name, or a report
-- that says which of the two is not there. One fault is not reported: that of a module below
-- another one which is there and cannot be loaded.
import Turnstile.Config.Basic
import Turnstile.Proofs.Diagram.Lines
import Turnstile.Proofs.Text.Split

namespace Turnstile

namespace Catalogue

variable {c : Catalogue} {path module symbol : String} {m : HookModule} {fault : Fault}

/-! ## Paths -/

/-- A path names a symbol of a module: they stand before and behind its first colon, and the blanks
around them are left out. -/
inductive Names : String → String → String → Prop where
  | parts {before after : List Char} (hfirst : ':' ∉ before) (hmodule : ¬AllBlank before)
    (hsymbol : ¬AllBlank after) : Names (String.ofList (before ++ ':' :: after))
      (String.ofList (Text.trim before)) (String.ofList (Text.trim after))

theorem eq_of_dropWhile_colon {cs after : List Char} {colon : Char}
    (h : cs.dropWhile (· ≠ ':') = colon :: after) :
    ':' ∉ cs.takeWhile (· ≠ ':') ∧ cs = cs.takeWhile (· ≠ ':') ++ ':' :: after := by
  constructor
  · intro hmem
    simpa using List.mem_takeWhile_imp hmem
  · have hcolon : colon = ':' := by
      have hhead := List.head?_dropWhile_not (· ≠ ':') cs
      rw [h] at hhead
      simpa using hhead
    rw [← hcolon, ← h, hcolon, List.takeWhile_append_dropWhile]

/-- A path splits into what it names. -/
theorem splitPath?_eq_some :
    splitPath? path = some (module, symbol) ↔ Names path module symbol := by
  constructor
  · intro h
    simp only [splitPath?] at h
    split at h
    · cases h
    rename_i colon after hdrop
    split at h
    · cases h
    rename_i hparts
    cases h
    obtain ⟨hfirst, hpath⟩ := eq_of_dropWhile_colon hdrop
    simp only [Bool.or_eq_true, List.isEmpty_iff, trim_eq_nil, not_or] at hparts
    have hnames := Names.parts hfirst hparts.1 hparts.2
    rwa [← hpath, String.ofList_toList] at hnames
  · intro h
    cases h with
    | @parts before after hfirst hmodule hsymbol =>
      have hall : ∀ c ∈ before, decide (c ≠ ':') = true := by
        rintro c hc
        refine decide_eq_true ?_
        rintro rfl
        exact hfirst hc
      simp only [splitPath?, String.toList_ofList, List.dropWhile_append_of_pos hall,
        List.takeWhile_append_of_pos hall]
      simp [trim_eq_nil, hmodule, hsymbol]

/-! ## Modules below modules -/

theorem loadParts_append {parts more : List String} {parent : HookModule}
    (h : c.loadParts path parent parts = .ok m) :
    c.loadParts path parent (parts ++ more) =
      c.loadParts (".".intercalate (path :: parts)) m more := by
  induction parts generalizing path parent with
  | nil =>
    cases h
    rfl
  | cons part parts ih =>
    simp only [List.cons_append, loadParts] at h ⊢
    split at h
    · cases h
    rename_i hpackage
    rw [if_neg hpackage]
    split at h
    · cases h
    · cases h
    · exact ih h

/-- Modules below another one cannot be loaded if one of them is not there, or one of them raises a
fault. -/
theorem loadParts_error {parts : List String} {parent : HookModule}
    (h : c.loadParts path parent parts = .error fault) :
    fault.isImporting = true ∨
      ∃ more rest, parts = more ++ rest ∧
        c.lookup (".".intercalate (path :: more)) = some (.error fault) := by
  induction parts generalizing path parent with
  | nil => cases h
  | cons part parts ih =>
    simp only [loadParts] at h
    split at h
    · cases h
      exact .inl rfl
    split at h
    · cases h
      exact .inl rfl
    · rename_i hentry
      cases h
      exact .inr ⟨[part], parts, rfl, hentry⟩
    · rcases ih h with himporting | ⟨more, rest, rfl, hentry⟩
      · exact .inl himporting
      · exact .inr ⟨part :: more, rest, rfl, hentry⟩

theorem intercalate_splitOn_dot (path : String) : ".".intercalate (path.splitOn ".") = path := by
  have hsplit : path.splitOn "." = (path.toList.splitOn '.').map String.ofList :=
    Text.splitOn_single '.' path
  apply String.toList_injective
  rw [String.toList_intercalate, hsplit, List.map_map]
  simp

theorem load_eq_ok : c.load path = .ok m ↔ ∃ first parts outer, path.splitOn "." = first :: parts ∧
    first ≠ "" ∧ c.lookup first = some (.ok outer) ∧ c.loadParts first outer parts = .ok m := by
  unfold load
  split
  · rename_i hsplit
    simp [hsplit]
  · rename_i hsplit
    simp [hsplit]
  · rename_i first parts hfirst hsplit
    have hfirst' : first ≠ "" := fun heq => hfirst heq
    cases hentry : c.lookup first with
    | none => simp [hsplit, hentry]
    | some entry =>
      cases entry with
      | error fault => simp [hsplit, hentry]
      | ok outer => simp [hsplit, hentry, hfirst']

/-- What is below a module that loads is looked for from there. -/
theorem load_below (h : c.load module = .ok m) :
    c.load (module ++ "." ++ symbol) = c.loadParts module m (symbol.splitOn ".") := by
  have hjoin : (module ++ "." ++ symbol).splitOn "." = module.splitOn "." ++ symbol.splitOn "." :=
    Text.splitOn_join '.' module symbol
  obtain ⟨first, parts, outer, hsplit, hfirst, houter, hparts⟩ := load_eq_ok.1 h
  have hwhole := intercalate_splitOn_dot module
  rw [hsplit] at hwhole hjoin
  rw [← hwhole, ← loadParts_append hparts, hwhole]
  unfold load
  rw [hjoin, List.cons_append]
  split
  · contradiction
  · rename_i heq
    cases heq
    contradiction
  · rename_i heq
    cases heq
    rw [houter]

theorem isCancellation_of_isImporting (h : fault.isImporting = true) :
    fault.isCancellation = false := by
  cases fault with
  | raised kind args => cases kind <;> first | rfl | cases h
  | reported => rfl

/-- A module that cannot be loaded is not there or raises a fault, or so does a module above it. -/
theorem load_error (h : c.load path = .error fault) :
    fault.isCancellation = false ∨ ∃ name, c.lookup name = some (.error fault) := by
  unfold load at h
  split at h
  · cases h
    exact .inl rfl
  · cases h
    exact .inl rfl
  · rename_i first parts _ _
    split at h
    · cases h
      exact .inl rfl
    · rename_i hentry
      cases h
      exact .inr ⟨first, hentry⟩
    · rcases loadParts_error h with himporting | ⟨more, rest, -, hentry⟩
      · exact .inl (isCancellation_of_isImporting himporting)
      · exact .inr ⟨_, hentry⟩

/-! ## What a path leads to -/

/-- What is reported of a path: it names nothing; the module that it names cannot be loaded; or the
module has no such symbol, and there is no module below it of that name. -/
inductive Misses (c : Catalogue) (path : String) : SymbolFault → Prop where
  | malformed (hnone : ∀ module symbol, ¬Names path module symbol) :
    Misses c path (.malformedPath path)
  | noModule {module symbol : String} {fault : Fault} (hnames : Names path module symbol)
    (hload : c.load module = .error fault) : Misses c path (.noModule module path)
  | noSymbol {module symbol : String} {m : HookModule} {fault : Fault}
    (hnames : Names path module symbol) (hload : c.load module = .ok m)
    (hnone : m.symbols.lookup symbol = none)
    (hbelow : c.load (module ++ "." ++ symbol) = .error fault)
    (himporting : fault.isImporting = true) : Misses c path (.noSymbol module symbol path)

/-- A fault that is not reported of a path: the module that it names has no such symbol, and the one
below it of that name cannot be loaded, though not for want of what is to be imported. -/
inductive Overlooks (c : Catalogue) (path : String) (fault : Fault) : Prop where
  | below {module symbol : String} {m : HookModule} (hnames : Names path module symbol)
    (hload : c.load module = .ok m) (hnone : m.symbols.lookup symbol = none)
    (hbelow : c.load (module ++ "." ++ symbol) = .error fault)
    (himporting : fault.isImporting = false)

/-- Nothing in a catalogue is called off while it loads. -/
def LoadsThrough (c : Catalogue) : Prop :=
  ∀ name fault, c.lookup name = some (.error fault) → fault.isCancellation = false

/-- A path that names nothing is malformed. -/
theorem find_of_no_names (h : ∀ module symbol, ¬Names path module symbol) :
    c.find path = .error (.reported (SymbolFault.malformedPath path).report) := by
  have hsplit : splitPath? path = none := by
    rw [Option.eq_none_iff_forall_ne_some]
    exact fun x hx => h x.1 x.2 (splitPath?_eq_some.1 hx)
  rw [find, hsplit]

/-- A path leads to the symbol of its module, or to the module below it if there is no such
symbol. -/
theorem find_eq_ok {s : HookSymbol} : c.find path = .ok s ↔
    ∃ module symbol m, Names path module symbol ∧ c.load module = .ok m ∧
      (m.symbols.lookup symbol = some s ∨ m.symbols.lookup symbol = none ∧
        ∃ sub, c.load (module ++ "." ++ symbol) = .ok sub ∧
          s = .module (module ++ "." ++ symbol) sub.hooks) := by
  constructor
  · intro h
    by_cases hnames : ∃ module symbol, Names path module symbol
    · obtain ⟨module, symbol, hnames⟩ := hnames
      refine ⟨module, symbol, ?_⟩
      simp only [find, splitPath?_eq_some.2 hnames] at h
      split at h
      · split at h <;> cases h
      rename_i m hload
      refine ⟨m, hnames, hload, ?_⟩
      split at h
      · rename_i hsymbol
        cases h
        exact .inl hsymbol
      rename_i hnone
      split at h
      · rename_i sub hbelow
        cases h
        exact .inr ⟨hnone, sub, hbelow, rfl⟩
      · split at h <;> cases h
    · rw [find_of_no_names fun module symbol h => hnames ⟨module, symbol, h⟩] at h
      cases h
  · rintro ⟨module, symbol, m, hnames, hload, hsymbol | ⟨hnone, sub, hbelow, rfl⟩⟩
    · simp only [find, splitPath?_eq_some.2 hnames, hload, hsymbol]
    · simp only [find, splitPath?_eq_some.2 hnames, hload, hnone, hbelow]

/-- A path leads nowhere for what is reported of it, or for the fault that is not. -/
theorem find_eq_error (hc : c.LoadsThrough) : c.find path = .error fault ↔
    (∃ f, c.Misses path f ∧ fault = .reported f.report) ∨ c.Overlooks path fault := by
  have hthrough : ∀ {module fault'}, c.load module = .error fault' →
      fault'.isCancellation = false := by
    intro module fault' hload
    rcases load_error hload with hfalse | ⟨name, hentry⟩
    · exact hfalse
    · exact hc name fault' hentry
  constructor
  · intro h
    by_cases hnames : ∃ module symbol, Names path module symbol
    · obtain ⟨module, symbol, hnames⟩ := hnames
      simp only [find, splitPath?_eq_some.2 hnames] at h
      split at h
      · rename_i hload
        rw [if_neg (by simp [hthrough hload])] at h
        cases h
        exact .inl ⟨_, .noModule hnames hload, rfl⟩
      rename_i m hload
      split at h
      · cases h
      rename_i hnone
      split at h
      · cases h
      rename_i hbelow
      split at h
      · rename_i himporting
        cases h
        exact .inl ⟨_, .noSymbol hnames hload hnone hbelow himporting, rfl⟩
      · rename_i himporting
        cases h
        exact .inr (.below hnames hload hnone hbelow (by simpa using himporting))
    · have hnone := fun module symbol h => hnames ⟨module, symbol, h⟩
      rw [find_of_no_names hnone] at h
      cases h
      exact .inl ⟨_, .malformed hnone, rfl⟩
  · rintro (⟨f, hmisses, rfl⟩ | ⟨hnames, hload, hnone, hbelow, himporting⟩)
    · cases hmisses with
      | malformed hnone => exact find_of_no_names hnone
      | noModule hnames hload => simp [find, splitPath?_eq_some.2 hnames, hload, hthrough hload]
      | noSymbol hnames hload hnone hbelow himporting =>
        simp [find, splitPath?_eq_some.2 hnames, hload, hnone, hbelow, himporting]
    · simp [find, splitPath?_eq_some.2 hnames, hload, hnone, hbelow, himporting]

/-- A fault that is not reported is raised by a module on the way from the one that the path names
to the one below it. -/
theorem Overlooks.raised (h : c.Overlooks path fault) : ∃ module symbol more rest,
    Names path module symbol ∧ symbol.splitOn "." = more ++ rest ∧
      c.lookup (".".intercalate (module :: more)) = some (.error fault) := by
  obtain ⟨hnames, hload, -, hbelow, himporting⟩ := h
  rename_i module symbol m
  rw [load_below hload] at hbelow
  rcases loadParts_error hbelow with himporting' | ⟨more, rest, hsplit, hentry⟩
  · rw [himporting] at himporting'
    cases himporting'
  · exact ⟨module, symbol, more, rest, hnames, hsplit, hentry⟩

end Catalogue

/-! ## Configurations -/

/-- A configuration whose hooks are not found has no machine. -/
theorem Config.build_of_find_error {config : Config} {c : Catalogue} {path : String} {fault : Fault}
    (hhooks : config.hooks = some path) (hpath : path ≠ "") (h : c.find path = .error fault) :
    config.build c = .error fault := by
  have hfails : c.hooksAt path = .error fault := by
    rw [Catalogue.hooksAt, h]
    rfl
  simp only [Config.build, hhooks, hfails]
  rfl

namespace Catalogue

/-- Every path leads to the symbol that it names, or to the module of that name if there is none, or
to a report of what is not there, but for one case: a module that is there and cannot be loaded,
below one that has no such symbol. Its fault is passed on. A configuration with a path that leads
nowhere has no machine, for the same fault, and no registry learns of it. -/
theorem a_path_is_found_reported_or_overlooked (c : Catalogue) (path : String)
    (hc : c.LoadsThrough) :
    (∀ s, c.find path = .ok s ↔ ∃ module symbol m, Names path module symbol ∧
      c.load module = .ok m ∧ (m.symbols.lookup symbol = some s ∨
        m.symbols.lookup symbol = none ∧ ∃ sub, c.load (module ++ "." ++ symbol) = .ok sub ∧
          s = .module (module ++ "." ++ symbol) sub.hooks)) ∧
    (∀ fault, c.find path = .error fault ↔
      (∃ f, c.Misses path f ∧ fault = .reported f.report) ∨ c.Overlooks path fault) ∧
    (∀ fault, c.Overlooks path fault → ∃ module symbol more rest, Names path module symbol ∧
      symbol.splitOn "." = more ++ rest ∧
      c.lookup (".".intercalate (module :: more)) = some (.error fault)) ∧
    ∀ (config : Config) (r : Registry) fault, config.hooks = some path → path ≠ "" →
      c.find path = .error fault → config.enroll c r = (r, .error fault) := by
  refine ⟨fun _ => find_eq_ok, fun _ => find_eq_error hc, fun _ h => h.raised, ?_⟩
  intro config r fault hhooks hpath h
  rw [Config.enroll, Config.build_of_find_error hhooks hpath h]

/-- A package with one module below it, which cannot be loaded. -/
def brokenBelow : Catalogue :=
  [("p", .ok { isPackage := true }), ("p.broken", .error (.plain .value "broken"))]

theorem loadsThrough_brokenBelow : brokenBelow.LoadsThrough := by
  intro name fault h
  obtain ⟨before, after, hsplit, -⟩ := List.lookup_eq_some_iff.1 h
  have hmem : (name, .error fault) ∈ brokenBelow := by simp [hsplit]
  simp only [brokenBelow, List.mem_cons, Prod.mk.injEq, reduceCtorEq, and_false, false_or,
    List.not_mem_nil, or_false, Except.error.injEq] at hmem
  rw [hmem.2]
  rfl

theorem load_brokenBelow : brokenBelow.load "p" = .ok { isPackage := true } :=
  load_eq_ok.2 ⟨"p", [], _, (Text.splitOn_single '.' "p").trans (by decide), by decide, rfl, rfl⟩

/-- A symbol that is not there is reported, and the registry stays empty. -/
theorem a_missing_symbol_is_reported :
    let path := " p : gone "
    let fault := Fault.reported (SymbolFault.noSymbol "p" "gone" path).report
    brokenBelow.LoadsThrough ∧ Names path "p" "gone" ∧ brokenBelow.find path = .error fault ∧
      (⟨"m", "[*] --> a : go", "plantuml", some path, {}, "c"⟩ : Config).enroll brokenBelow [] =
        ([], .error fault) := by
  intro path fault
  have hnames : Names path "p" "gone" := splitPath?_eq_some.1 (by decide)
  have hbelow : brokenBelow.load ("p" ++ "." ++ "gone") = .error (noModule "p.gone") := by
    rw [load_below load_brokenBelow, show "gone".splitOn "." = ["gone"] from
      (Text.splitOn_single '.' "gone").trans (by decide)]
    rfl
  obtain ⟨-, herror, -, hconfig⟩ :=
    a_path_is_found_reported_or_overlooked brokenBelow path loadsThrough_brokenBelow
  have hfind : brokenBelow.find path = .error fault :=
    (herror fault).2 (.inl ⟨_, .noSymbol hnames load_brokenBelow rfl hbelow rfl, rfl⟩)
  exact ⟨loadsThrough_brokenBelow, hnames, hfind, hconfig _ [] fault rfl (by decide) hfind⟩

/-- The fault of a module that cannot be loaded comes through as it is, where a missing one is
reported. -/
theorem a_broken_module_below_is_not_reported :
    let fault := Fault.plain .value "broken"
    brokenBelow.LoadsThrough ∧ brokenBelow.find "p:broken" = .error fault ∧
      fault.label = "ValueError" ∧ (∀ report, fault ≠ .reported report) ∧
      (⟨"m", "[*] --> a : go", "plantuml", some "p:broken", {}, "c"⟩ : Config).build brokenBelow =
        .error fault := by
  intro fault
  have hnames : Names "p:broken" "p" "broken" := splitPath?_eq_some.1 (by decide)
  have hbelow : brokenBelow.load ("p" ++ "." ++ "broken") = .error fault := by
    rw [load_below load_brokenBelow, show "broken".splitOn "." = ["broken"] from
      (Text.splitOn_single '.' "broken").trans (by decide)]
    rfl
  have hfind : brokenBelow.find "p:broken" = .error fault :=
    (find_eq_error loadsThrough_brokenBelow).2
      (.inr (.below hnames load_brokenBelow rfl hbelow rfl))
  exact ⟨loadsThrough_brokenBelow, hfind, rfl, nofun,
    Config.build_of_find_error rfl (by decide) hfind⟩

end Catalogue
end Turnstile
