import Downlevel.Session
import Downlevel.Json.Reader
import Downlevel.Proofs.CommonJs.Footer
import Downlevel.Proofs.CommonJs.DynamicImports
import Downlevel.Proofs.CommonJs.Mapping
import Downlevel.Proofs.CommonJs.Statements
import Downlevel.Proofs.CacheKey.Soundness
import Downlevel.Proofs.Script.Grammar.Reading
import Downlevel.Proofs.CommonJs.GeneratedNames
import Downlevel.Proofs.Script.BoundNames
import Downlevel.Proofs.Script.Grammar.Shape
import Downlevel.Proofs.CommonJs.Assignment
import Downlevel.Proofs.CommonJs.ExportEntries
import Downlevel.Proofs.Script.Spelling.Basic
import Downlevel.Proofs.Script.Spelling.Expression
import Downlevel.Proofs.Script.Spelling.Statement
import Downlevel.Proofs.Script.Spelling.Module
import Downlevel.Proofs.CommonJs.Literals
import Downlevel.Proofs.CommonJs.MapComments
import Downlevel.Proofs.CommonJs.Configuration
import Downlevel.Proofs.SourceMap.Reloading
import Downlevel.Proofs.CommonJs.Declarations
import Downlevel.Proofs.Text.Simultaneous
import Downlevel.Proofs.CommonJs.CarriedOut
import Downlevel.Proofs.CommonJs.NamesDeclared
import Downlevel.Proofs.SourceMap.Acceptance
import Downlevel.Proofs.ScopedImport.Problem
import Downlevel.Proofs.CommonJs.Failing
import Downlevel.Proofs.Text.Base64
import Downlevel.Proofs.Json.Reading
import Downlevel.Proofs.SourceMap.Comment
import Downlevel.Proofs.Typed.Decorators
import Downlevel.Proofs.Typed.Placement
import Downlevel.Proofs.Typed.Gates
import Downlevel.Proofs.Session
import Downlevel.Proofs.Language
import Downlevel.Proofs.Script.Property
import Downlevel.Proofs.CommonJs.FreshName
