/-
# The programs

The filters that can be found by name.
-/

import ThemedSvg.Tool.Copying
import ThemedSvg.Tool.Exchange

namespace ThemedSvg.Tool

/-- The programs by name. -/
def programs : List (String × Program) :=
  [("cat", Copying.program), ("tr", Exchange.program)]

/-- The program of a name. -/
def program? (name : String) : Option Program :=
  programs.lookup name

end ThemedSvg.Tool
