import Downlevel.Proofs.CommonJs.Header
import Downlevel.Proofs.SourceMap.Decoding

/-!
# Maps of converted scripts

The header of a converted script is made of whole lines, so the body begins at the start of a line,
and all that the header does to the map of the body is to move its lines down.
-/

namespace Downlevel.CommonJs

open Text

variable {parts : Parts} {filename code : String}

/-- A map of an earlier step is moved behind the header; only its file is named anew. -/
theorem mapOf_some (parts : Parts) (filename code : String) (m : SourceMap) :
    mapOf parts filename code (some m)
        = { m with file := some filename, mappings := (mapOf parts filename code (some m)).mappings }
      ∧ SourceMap.decode (mapOf parts filename code (some m)).mappings
        = (SourceMap.decode m.mappings).map
            (List.map (SourceMap.Mapping.shift (newlines parts.header))) :=
  ⟨rfl, SourceMap.decode_blankLines_append (newlines parts.header) m.mappings⟩

/-- Without a map of an earlier step, every line of the body comes from its own line. -/
theorem mapOf_none (parts : Parts) (filename code : String) :
    (mapOf parts filename code none).sources = [filename] ∧
      (mapOf parts filename code none).sourcesContent = some [some code] ∧
      SourceMap.decode (mapOf parts filename code none).mappings
        = some ((List.range (code.toList.splitOn '\n').length).map fun i ↦
            SourceMap.Mapping.ofLine (newlines parts.header + i) i) :=
  ⟨rfl, rfl, SourceMap.decode_ofLines filename code (newlines parts.header)⟩

/-- The map that is handed back with a converted script. The body of the script begins a line, and
the map is that of the step before, or the one that sends lines to themselves, moved down by the
lines of the header. -/
theorem map_of_convert {config : ModuleConfig} {input : Option SourceMap} {unit : ScriptUnit}
    (hconvert : convert config filename code input = .ok unit)
    (hmode : config.sourceMaps.handsBack = true) :
    ∃ parts tail map, partsOf config filename code = .ok parts ∧
      unit.code.toList = parts.header ++ dropMapComments parts.body ++ tail ∧
      (parts.header = [] ∨ parts.header.getLast? = some '\n') ∧
      unit.map = some map ∧
      (∀ m, input = some m →
        map = { m with file := some filename, mappings := map.mappings } ∧
          SourceMap.decode map.mappings
            = (SourceMap.decode m.mappings).map
                (List.map (SourceMap.Mapping.shift (newlines parts.header)))) ∧
      (input = none →
        map.sources = [filename] ∧ map.sourcesContent = some [some code] ∧
          SourceMap.decode map.mappings
            = some ((List.range (code.toList.splitOn '\n').length).map fun i ↦
                SourceMap.Mapping.ofLine (newlines parts.header + i) i)) := by
  obtain ⟨parts, tail, hparts, hcode, hmap⟩ := exists_parts_of_convert hconvert
  rw [if_pos hmode] at hmap
  have hheader : parts.header = [] ∨ parts.header.getLast? = some '\n' :=
    (wholeLines_of_partsOf hparts).imp_right beq_iff_eq.mp
  refine ⟨parts, tail, _, hparts, hcode, hheader, hmap, ?_, ?_⟩
  · rintro m rfl
    exact mapOf_some parts filename code m
  · rintro rfl
    exact mapOf_none parts filename code

/-- A script with an import behind another step: the mapping of its second line is moved down. -/
theorem map_of_convert_import :
    let code := "import a from \"b\";\na();\n"
    let config : ModuleConfig := ⟨.external, [], [.modulesCommonJs]⟩
    let input : SourceMap := ⟨3, none, none, ["c.ts"], none, [], ";AACA"⟩
    ∃ unit map, convert config "a.js" code (some input) = .ok unit ∧ unit.map = some map ∧
      SourceMap.decode map.mappings
        = some [SourceMap.Mapping.shift 3 ⟨1, 0, some ⟨0, 1, 0, none⟩⟩] := by
  intro code config input
  have hdone : (convert config "a.js" code (some input)).toOption.isSome = true := by
    decide +kernel
  have hlines : (partsOf config "a.js" code).toOption.map (fun p ↦ newlines p.header) = some 3 := by
    decide +kernel
  cases hconvert : convert config "a.js" code (some input) with
  | error e => rw [hconvert] at hdone; cases hdone
  | ok unit =>
    obtain ⟨parts, tail, map, hparts, -, -, hmap, hinput, -⟩ := map_of_convert hconvert rfl
    rw [hparts] at hlines
    have hheader : newlines parts.header = 3 := Option.some.inj hlines
    refine ⟨unit, map, rfl, hmap, ?_⟩
    rw [(hinput input rfl).2, hheader]
    decide +kernel

end Downlevel.CommonJs
