import NodeQuery.Json.Display
/-!
When two ids are the same. Numbers are the same if their values are, whatever their form, and truth
values count as one and zero; a text is never the same as a number. `same` is an equivalence by
construction: it compares identities.
-/
namespace NodeQuery.Json

/-- What a value is, apart from its form. -/
inductive Identity where
  | null
  | number (value : Rat)
  | unordered (value : Binary64)
  | text (value : String)
  | compound (value : String)
  deriving DecidableEq

/-- The identity of a value. -/
def identity : Json → Identity
  | .null => .null
  | .bool b => .number (if b then 1 else 0)
  | .int n => .number n
  | .real x => match x.toRat? with
    | some q => .number q
    | none => .unordered x
  | .text s => .text s
  | value => .compound value.quote

/-- Two values are the same id. -/
def same (a b : Json) : Bool :=
  a.identity == b.identity

theorem same_iff {a b : Json} : a.same b = true ↔ a.identity = b.identity := by
  simp [same]

theorem same_refl (a : Json) : a.same a = true := by
  simp [same]

/-- Whole numbers are the same id only if they are equal. -/
theorem same_int {m n : Int} : (Json.int m).same (.int n) = true ↔ m = n := by
  simp [same, identity]

end NodeQuery.Json
