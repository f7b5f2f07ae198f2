import ContainerTasks.Config.Decoding
import ContainerTasks.Config.Validation
import ContainerTasks.FileFault
import ContainerTasks.Text.Utf8

/-!
# Loading configurations

A configuration is kept in a file as a TOML text. It can be read as it is written, without its
content being checked; what is loaded for use has been validated.

## Main definitions

* `Config.LoadFault`: why a configuration cannot be loaded
* `Config.read`, `Config.load`

## Main results

* `Config.load_eq_ok_iff`: a configuration is loaded if it can be read and is valid
-/

namespace ContainerTasks.Config

/-- Why a configuration cannot be loaded. -/
inductive LoadFault where
  | unreadable (fault : FileFault)
  | notToml
  | flawed (flaw : Flaw)
  deriving DecidableEq

/-- The wording of a fault. -/
def LoadFault.message : LoadFault → String
  | unreadable fault => "IO error: " ++ fault.message
  | notToml => "TOML parse error"
  | flawed flaw => flaw.message

/-- The wording of a fault, followed by that of what lies behind it. -/
def LoadFault.messages (fault : LoadFault) : List String :=
  fault.message :: match fault with
    | unreadable cause => [cause.message]
    | notToml | flawed _ => []

/-- The configuration in the content of a file. -/
def read (content : Except FileFault (List UInt8)) : Except LoadFault Config := do
  match Utf8.decode? (← content.mapError .unreadable) with
  | none => throw (.unreadable .invalidText)
  | some text =>
    match parse? text with
    | none => throw .notToml
    | some config => return config

/-- The valid configuration in the content of a file. -/
def load (content : Except FileFault (List UInt8)) : Except LoadFault Config := do
  (← read content).validate.mapError .flawed

theorem load_eq_ok_iff {content : Except FileFault (List UInt8)} {config : Config} :
    load content = .ok config ↔
      ∃ written, read content = .ok written ∧ written.validate = .ok config := by
  unfold load
  cases read content with
  | error fault => exact ⟨nofun, nofun⟩
  | ok written =>
    change written.validate.mapError LoadFault.flawed = .ok config ↔ _
    cases hv : written.validate with
    | error flaw =>
      refine ⟨nofun, ?_⟩
      rintro ⟨_, ⟨⟩, h⟩
      cases hv.symm.trans h
    | ok valid =>
      constructor
      · rintro ⟨⟩
        exact ⟨written, rfl, hv⟩
      · rintro ⟨_, ⟨⟩, h⟩
        cases hv.symm.trans h
        rfl

end ContainerTasks.Config
