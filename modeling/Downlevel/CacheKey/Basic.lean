import Downlevel.Digest.Sha256
import Downlevel.Text.Quoted
import Downlevel.Text.Utf8

/-!
# Cache keys

A cache key is the digest of everything that the result for a file depends on. The bytes
that are digested name the configuration first, then the layout of keys, then every field with a
zero byte behind it.
-/

namespace Downlevel

/-- What a cache key depends on. -/
structure KeyFields where
  sourceText : String
  sourcePath : String
  configText : String
  environment : String
  compilerVersion : String
  deriving DecidableEq, Repr

namespace KeyFields

open Text

/-- The name of the layout of keys; a new name makes all old keys void. -/
def layoutName : String := "lwc-jest-transformer/v2"

/-- The fields in the order in which they are digested. -/
def inOrder (input : KeyFields) : List String :=
  [input.sourceText, input.sourcePath, input.configText, input.environment,
    input.compilerVersion]

/-- The bytes of a string with a zero byte behind them. -/
def delimited (s : String) : List UInt8 := utf8 s ++ [0]

/-- The bytes that are digested. -/
def bytes (input : KeyFields) : List UInt8 :=
  utf8 (Quoted.quote input.configText) ++ delimited layoutName ++ input.inOrder.flatMap delimited

/-- The cache key, in hexadecimal digits. -/
def key (input : KeyFields) : String := Digest.Sha256.hex input.bytes

end KeyFields

end Downlevel
