import Mathlib.Data.Int.Notation
import Mathlib.Data.Nat.Notation

/-!
# Values shared by the modules

Times are milliseconds. `Blank` is what the constructors of the domain reject in an id or a name,
`s.trim().length === 0`, and `truthy` what `||` passes over.
-/

namespace LaunchPad

/-- Milliseconds. -/
abbrev Time := ℤ

/-- What `String.prototype.trim` strips. -/
def isWhiteSpace (c : Char) : Bool :=
  c.toNat ∈ [0x9, 0xA, 0xB, 0xC, 0xD, 0x20, 0xA0, 0x1680, 0x2000, 0x2001, 0x2002, 0x2003, 0x2004,
    0x2005, 0x2006, 0x2007, 0x2008, 0x2009, 0x200A, 0x2028, 0x2029, 0x202F, 0x205F, 0x3000, 0xFEFF]

def Blank (s : String) : Prop := ∀ c ∈ s.toList, isWhiteSpace c = true

instance : DecidablePred Blank := fun s => List.decidableBAll _ s.toList

/-- A string `||` stops at: there is one, and it is not empty. -/
def truthy : Option String → Option String
  | some "" => none
  | s => s

theorem truthy_eq_some {s : Option String} {t : String} (h : truthy s = some t) : s = some t := by
  unfold truthy at h
  split at h
  · cases h
  · exact h

theorem truthy_ne_empty {s : Option String} {t : String} (h : truthy s = some t) : t ≠ "" := by
  unfold truthy at h
  split at h
  · cases h
  · rename_i hne
    rintro rfl
    exact hne h

theorem truthy_some {t : String} (h : t ≠ "") : truthy (some t) = some t := by
  unfold truthy
  split
  · rename_i he
    exact absurd (Option.some.inj he) h
  · rfl

/-- What `randomUUID` draws. -/
structure Uuid where
  val : String
  nonblank : ¬ Blank val
deriving DecidableEq

end LaunchPad
