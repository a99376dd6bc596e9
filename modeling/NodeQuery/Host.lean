import NodeQuery.Text.CharacterName
import NodeQuery.Text.Encoding
/-!
What the machine that a query runs on knows of text besides this library: more encodings and more
names of characters. Nothing is assumed of them, so what is proved of queries holds on any machine.
-/
namespace NodeQuery

/-- Encodings and characters by name, besides those of this library. -/
class Host where
  codec? : String → Option Text.Codec
  character? : String → Option Char

/-- A machine that knows no more than this library. -/
instance (priority := low) Host.plain : Host where
  codec? _ := none
  character? _ := none

namespace Text
variable [Host]

/-- The encoding with a name. -/
def Codec.named? (name : String) : Option Codec :=
  ((Encoding.named? name).map Encoding.codec).or (Host.codec? name)

/-- The code point of the character with a name. -/
def named? (name : String) : Option Nat :=
  (tabulated? name).or ((Host.character? name).map Char.toNat)

end Text
end NodeQuery
