import DSYMCreator.Binary.LittleEndian
import DSYMCreator.Binary.Slices
import DSYMCreator.Binary.Parser
import DSYMCreator.Binary.StructLayout
import DSYMCreator.Binary.RoundUp
import DSYMCreator.Text.Numerals
import DSYMCreator.Text.HexNumeral
import DSYMCreator.Text.HexBytes
import DSYMCreator.Text.Lines
import DSYMCreator.Text.Utf8
import DSYMCreator.Order.Related
import DSYMCreator.Order.Successive
import DSYMCreator.Formats.MachO
import DSYMCreator.Formats.Dwarf
import DSYMCreator.Script.Python
import DSYMCreator.Script.ObjcSymbols
import DSYMCreator.Script.Segments
import DSYMCreator.Script.IdcScript
import DSYMCreator.Tool.Basic
import DSYMCreator.Tool.StringTable
import DSYMCreator.Tool.StringCopies
import DSYMCreator.Tool.MachoTypeWrapper
import DSYMCreator.Tool.SymbolTable
import DSYMCreator.Tool.DwarfSections
import DSYMCreator.Tool.Macho
import DSYMCreator.Tool.Main
import DSYMCreator.Tool.Objects
import DSYMCreator.Tool.TableImages
import DSYMCreator.Tool.FileImage
import DSYMCreator.Tool.FileView
import DSYMCreator.Tool.HeaderViews
import DSYMCreator.Tool.DumpOutcomes
import DSYMCreator.Tool.ObjcInput
import DSYMCreator.Tool.SymbolLines
import DSYMCreator.Properties.LoadCommands
import DSYMCreator.Properties.FileLayout
import DSYMCreator.Properties.SymbolRoundTrip
import DSYMCreator.Properties.NullName
import DSYMCreator.Properties.DebugInfoRoundTrip
import DSYMCreator.Properties.DebugUnits
import DSYMCreator.Properties.Reproducible
import DSYMCreator.Properties.SegmentsDisjoint
import DSYMCreator.Properties.Symbolication
import DSYMCreator.Properties.MethodAddresses
import DSYMCreator.Properties.SymbolText
import DSYMCreator.Properties.UuidText
import DSYMCreator.Properties.ExactLines
import DSYMCreator.Properties.OnlyUuidFails
import DSYMCreator.Properties.OffsetOverflow
import DSYMCreator.Properties.StringTableIndex
import DSYMCreator.Properties.PageRounding
import DSYMCreator.Formats.MachOImage
import DSYMCreator.Properties.SegmentMaximum
import DSYMCreator.Binary.FileParser
import DSYMCreator.Order.NextElement
import DSYMCreator.Runs.Exactly
import DSYMCreator.Runs.Touches
import DSYMCreator.Runs.Refines
import DSYMCreator.Text.PatternMatches
import DSYMCreator.Text.PosixPath
import DSYMCreator.Formats.MachOImageBounds
import DSYMCreator.Formats.MachOReaders
import DSYMCreator.Formats.DebugFile
import DSYMCreator.Script.DumpDocument
import DSYMCreator.Script.DumpExactly
import DSYMCreator.Script.UuidScrape
import DSYMCreator.Script.DumpUuids
import DSYMCreator.Tool.Process
import DSYMCreator.Tool.Stages
import DSYMCreator.Script.MainScript
import DSYMCreator.Script.Pipeline
import DSYMCreator.Script.PipelineRuns
import DSYMCreator.Script.Simulated
import DSYMCreator.Properties.SymbolFileDump
import DSYMCreator.Properties.ScrapedUuid
import DSYMCreator.Properties.IdaSymbols
import DSYMCreator.Properties.ExitStatus
import DSYMCreator.Properties.OutputPath
import DSYMCreator.Properties.CreatedFile
import DSYMCreator.Properties.ScriptFiles
import DSYMCreator.Properties.RepeatedRuns
import DSYMCreator.Properties.ObjcRuns
import DSYMCreator.Properties.IdaRuns
import DSYMCreator.Properties.RunIdentity
