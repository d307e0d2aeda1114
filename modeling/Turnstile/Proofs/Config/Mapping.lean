-- The loading of a configuration taken apart at the mapping that its file holds: what is made of a
-- mapping, and that a configuration that comes of it has passed each of the checks.
import Turnstile.Proofs.Config.Loaded

namespace Turnstile.Config

variable {read : Reader} {p : Path} {fields : List (String × Value)} {c : Config}

/-- The configuration of a mapping, whichever file holds it. -/
def ofFields (read : Reader) (p : Path) (fields : List (String × Value)) : Except Fault Config := do
  let name ← nameOf p fields
  let dialect ← dialectOf p fields
  let hooks ← hooksOf p fields
  let diagram ← readDiagram read p (← diagramSource p fields)
  let settings ← runtime p.text (get fields "runtime")
  return ⟨name, diagram, dialect, hooks, settings, p.text⟩

/-- To load a file is to read its mapping and to make a configuration of that. -/
theorem load_eq (read : Reader) (p : Path) :
    load read p = Config.fields read p >>= ofFields read p := rfl

/-- The settings of a configuration are those of the `runtime` field. -/
theorem runtime_of_ofFields (hc : ofFields read p fields = .ok c) :
    runtime p.text (get fields "runtime") = .ok c.settings := by
  unfold ofFields at hc
  simp only [bind_eq_ok_iff] at hc
  obtain ⟨name, -, dialect, -, hooks, -, source, -, diagram, -, settings, hsettings, hc⟩ := hc
  obtain rfl := Except.ok.inj hc
  exact hsettings

end Turnstile.Config
