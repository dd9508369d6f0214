/-!
# Logwire.Text.Length

How long a text can be.
-/

namespace Logwire.Text

/-- No text has as many characters as this. -/
def lengthLimit : Nat := 1 <<< 40

end Logwire.Text
