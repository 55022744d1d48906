import Appspine.ContractPins
import Appspine.KeyOrder
import Appspine.JsonIndented

/-!
# The index of the registry

`contract-cli index`: what it writes, and when it finds what stands there fresh. With `--root-only`
the apps that use a contract are left out of the comparison.
-/
namespace Appspine.ContractRegistry
open JsText JsonText InsertionMap StableSort Utf16 Frontmatter JsonSchema ContractCli Generators

variable {N : Type} [NumberValue N] (env : Environment N)

section Source

/-- The apps that are looked through for usage. -/
inductive App where
  | template
  | approve
  | wiki
  deriving DecidableEq

def App.name : App → JsString
  | .template => js "appspine-app-template"
  | .approve => js "approve"
  | .wiki => js "wiki"

def code (text : JsString) : JsString := js "\x60" ++ text ++ js "\x60"

mutual

def withoutLocalUsage : Json N → Json N
  | .arr items => .arr (withoutLocalUsageItems items)
  | .obj members => .obj (withoutLocalUsageMembers members)
  | value => value

def withoutLocalUsageItems : List (Json N) → List (Json N)
  | [] => []
  | item :: items => withoutLocalUsage item :: withoutLocalUsageItems items

def withoutLocalUsageMembers : List (JsString × Json N) → List (JsString × Json N)
  | [] => []
  | (key, value) :: members =>
    if key = js "usedByApps" then withoutLocalUsageMembers members
    else (key, withoutLocalUsage value) :: withoutLocalUsageMembers members

end

def stale : JsString :=
  js "contract indexes are stale; run node scripts/contract-cli.mjs index --write"

end Source

section Usage

variable {env} {registry registry' : Registry} {contract : Contract N}

end Usage

section Pins

variable {env} {registry registry' : Registry}

end Pins

section Rows

variable {env} {registry : Registry} {contract : Contract N}

/-- Text that stays within a cell of a table. -/
def Cell (text : JsString) : Prop := ∀ u ∈ text, 0x20 ≤ u.val ∧ u.val < 0x7B

instance (text : JsString) : Decidable (Cell text) :=
  List.decidableBAll (fun u : CodeUnit => 0x20 ≤ u.val ∧ u.val < 0x7B) text

lemma Cell.append {a b : JsString} (ha : Cell a) (hb : Cell b) : Cell (a ++ b) := by
  intro u hu
  rcases List.mem_append.mp hu with hu | hu
  · exact ha u hu
  · exact hb u hu

lemma mem_join {sep : JsString} {parts : List JsString} {u : CodeUnit} (h : u ∈ join sep parts) :
    u ∈ sep ∨ ∃ part ∈ parts, u ∈ part := by
  induction parts with
  | nil => cases h
  | cons part parts ih =>
    cases parts with
    | nil =>
      rw [join_singleton] at h
      exact .inr ⟨part, List.mem_singleton_self _, h⟩
    | cons next rest =>
      rw [join_cons_cons, List.mem_append, List.mem_append] at h
      rcases h with (h | h) | h
      · exact .inr ⟨part, List.mem_cons_self, h⟩
      · exact .inl h
      · obtain h | ⟨p, hp, hu⟩ := ih h
        · exact .inl h
        · exact .inr ⟨p, List.mem_cons_of_mem _ hp, hu⟩

lemma Cell.join {sep : JsString} (hsep : Cell sep) {parts : List JsString}
    (hparts : ∀ part ∈ parts, Cell part) : Cell (join sep parts) := by
  intro u hu
  obtain hu | ⟨part, hpart, hu⟩ := mem_join hu
  · exact hsep u hu
  · exact hparts part hpart u hu

def padded (cell : JsString) : JsString := js " " ++ cell ++ js " "

/-- The tables keep their columns: ids as the meta schema has them, and digests in hexadecimal. -/
structure PlainNames (env : Environment N) : Prop where
  ids : ∀ frontmatter id, env.metaSchemaErrors frontmatter = [] →
    field (js "contract_id") frontmatter = some (.str id) →
      ∀ u ∈ id, u ∈ idUnits
  digests : ∀ bytes, ∀ u ∈ env.sha256Hex bytes, u ∈ hexUnits

lemma join_append {sep : JsString} {as bs : List JsString} (ha : as ≠ []) (hb : bs ≠ []) :
    join sep (as ++ bs) = join sep as ++ sep ++ join sep bs := by
  obtain ⟨b, bs, rfl⟩ := List.exists_cons_of_ne_nil hb
  induction as with
  | nil => exact absurd rfl ha
  | cons a as ih =>
    cases as with
    | nil => simp only [List.cons_append, List.nil_append, join_cons_cons, join_singleton]
    | cons a' as =>
      have hrest := ih (List.cons_ne_nil _ _)
      simp only [List.cons_append, join_cons_cons] at hrest ⊢
      simp only [hrest, List.append_assoc]

end Rows

section Sample

end Sample

section Results

variable {env} {registry registry' : Registry}

end Results

end Appspine.ContractRegistry
