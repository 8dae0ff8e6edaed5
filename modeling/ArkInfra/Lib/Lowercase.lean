import ArkInfra.Lib.Text

/-!
# Lower case

The lower case of a text over the whole of Unicode is a table that no proof
needs: a program that looks for keywords lowers its own texts, of which it is
enough to know that ASCII letters are lowered and that ideographs and their
punctuation have no case.  `Lowercase` is any function with that property.
-/

namespace ArkInfra

namespace Text

/-- A character whose lower case is known: an ASCII character, an ideograph or
full-width punctuation. -/
def isPlain (c : Char) : Bool :=
  decide (c.toNat < 0x80) || (decide (0x2e80 ≤ c.toNat) && decide (c.toNat ≤ 0x9fff)) ||
    (decide (0xff01 ≤ c.toNat) && decide (c.toNat ≤ 0xff20))

def containsAny (s : String) (pats : List String) : Bool :=
  pats.any (contains s)

end Text

structure Lowercase where
  lower : String → String
  lower_plain : ∀ s, s.toList.all Text.isPlain = true → lower s = Text.toAsciiLowercase s

def Lowercase.ascii : Lowercase where
  lower := Text.toAsciiLowercase
  lower_plain := by
    intro s _
    rfl

end ArkInfra
