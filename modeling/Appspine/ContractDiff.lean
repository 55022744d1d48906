import Appspine.SchemaCompatibility

/-!
# Comparing two contracts without the integration package

`compareSchemaPair` of contract-cli: the compatibility check of the integration package where
that package could be loaded, and otherwise a check of the two schemas' own keywords.
-/
namespace Appspine.ContractCli
open JsText JsonText InsertionMap JsonSchema Compatibility

variable {N : Type} [NumberValue N]

section Basic

end Basic

section Root

variable {fromSchema toSchema : Json N} {profile : CompatibilityProfile}
  {finding : CompatibilityFinding}

end Root

section Fallback

variable (fromSchema toSchema : Json N) (profile : CompatibilityProfile)

end Fallback

section Missed

def bounded (n : ℤ) : Json ℤ := .obj [(js "minLength", .num n)]

end Missed

end Appspine.ContractCli
