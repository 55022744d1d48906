import Appspine.PrismaText
import Appspine.BlockInsertion

/-!
# Injection as an insertion

The fields go into the text as one block of lines. They stand in the block of their model when that
ends with a bare brace, which is the only closing line that injection reads.
-/
namespace Appspine.Prisma
open JsText BlockInsertion
open ConfigBoundary (isSpaceUnit isWordUnit)

section Lines

end Lines

section Kinds

/-- A line is a trailing one by its first unit that is no space. -/
theorem not_isTrailer {line : JsString} {u : CodeUnit} {us : JsString}
    (h : line.dropWhile isSpaceUnit = u :: us) (hu : u ≠ unit '@') : isTrailer line = false := by
  rw [isTrailer, Bool.or_eq_false_iff]
  constructor
  · rw [Bool.eq_false_iff]
    intro hall
    have hnil : line.dropWhile isSpaceUnit = [] :=
      List.dropWhile_eq_nil_iff.mpr (List.all_eq_true.mp hall)
    rw [hnil] at h
    cases h
  · rw [Bool.eq_false_iff, h]
    intro hstarts
    obtain ⟨rest, hrest⟩ := startsWith_iff.mp hstarts
    exact hu (List.cons.inj hrest).1.symm

theorem not_isTrailer_of_headsModel {model line : JsString} (h : headsModel model line = true) :
    isTrailer line = false := by
  rw [headsModel, afterModelKeyword] at h
  split_ifs at h with hkeyword
  · obtain ⟨rest, hrest⟩ := startsWith_iff.mp hkeyword.1
    exact @not_isTrailer _ (unit 'm') (js "odel" ++ rest) hrest.symm (by decide)
  · cases h

theorem kinds {A B : JsString} (hA : IsName A) (hB : IsName B) (hne : A ≠ B) :
    Kinds (headsModel A) (headsModel B) isClosing isTrailer where
  opens line h := by
    rw [Bool.eq_false_iff]
    intro h'
    rw [headsModel_iff hA] at h
    rw [headsModel_iff hB, h] at h'
    exact hne (Option.some.inj h')
  closes line h := by
    have hnone := modelNameOf_of_isClosing h
    simp [Bool.eq_false_iff, headsModel_iff hA, headsModel_iff hB, hnone]
  trailing line h := by
    constructor
    · rw [Bool.eq_false_iff]
      intro hheads
      rw [not_isTrailer_of_headsModel hheads] at h
      cases h
    · rw [Bool.eq_false_iff]
      intro hheads
      rw [not_isTrailer_of_headsModel hheads] at h
      cases h

end Kinds

section Block

/-- What a manifest promises of a field: its name, and the id of the plugin. -/
structure Declared (entry : InjectedField) : Prop where
  field : IsName entry.field
  plugin : lineFeed ∉ entry.plugin

variable {fields fields' : List InjectedField}

end Block

section Text

variable {text model : JsString} {fields : List InjectedField} {lines pre body post : List JsString}
  {header closing : JsString}

end Text

section Inserts

variable {text model : JsString} {fields : List InjectedField} {lines pre body post : List JsString}
  {header closing : JsString}

end Inserts

section Commute

variable {text A B : JsString} {fields fieldsA fieldsB : List InjectedField}

end Commute

end Appspine.Prisma
