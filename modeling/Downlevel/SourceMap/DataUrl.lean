import Downlevel.SourceMap.Json
import Downlevel.Json.Printer
import Downlevel.Text.Base64

/-!
# Source maps within scripts

A script carries its map in its last line, a comment with the map as a data URL.
-/

namespace Downlevel.SourceMap

/-- What the data URL of a map starts with. -/
def dataUrlHead : String := "data:application/json;charset=utf-8;base64,"

/-- What the comment with the map of a script starts with. -/
def commentHead : String := "//# sourceMappingURL="

/-- The data URL of a map. -/
def dataUrl (m : SourceMap) : String :=
  dataUrlHead ++ Text.Base64.encode m.toJson.render

/-- The comment that carries a map. -/
def comment (m : SourceMap) : String := commentHead ++ m.dataUrl

end Downlevel.SourceMap
