import ModuleCompiler.Yaml.Cursor

/-!
What can be wrong with the form of a YAML text.
-/

namespace ModuleCompiler.Yaml

inductive SyntaxProblem where
  | invalidEncoding
  | controlCharacter
  | noToken
  | missingColon
  | entryMisplaced
  | keyMisplaced
  | valueMisplaced
  | directiveName
  | directiveUnknown
  | directiveEnd
  | versionNumber
  | versionLength
  | versionDot
  | versionRepeated
  | versionUnsupported
  | tagHandle
  | tagHandleRepeated
  | tagHandleUndefined
  | tagSpace
  | tagEmpty
  | tagEscape
  | tagUnclosed
  | anchorName
  | blockIndentZero
  | blockHeader
  | tabIndentation
  | markerInScalar
  | endInScalar
  | escapeUnknown
  | escapeHex
  | escapeCodePoint
  | colonInScalar
  | documentStart
  | nodeContent
  | sequenceEntry
  | mappingKey
  | flowSequenceEnd
  | flowMappingEnd
  deriving DecidableEq, Repr

def SyntaxProblem.message : SyntaxProblem → String
  | invalidEncoding => "the text is not encoded in UTF-8"
  | controlCharacter => "control characters are not allowed"
  | noToken => "found character that cannot start any token"
  | missingColon => "could not find expected ':'"
  | entryMisplaced => "block sequence entries are not allowed in this context"
  | keyMisplaced => "mapping keys are not allowed in this context"
  | valueMisplaced => "mapping values are not allowed in this context"
  | directiveName => "could not find expected directive name"
  | directiveUnknown => "found unknown directive name"
  | directiveEnd => "did not find expected comment or line break"
  | versionNumber => "did not find expected version number"
  | versionLength => "found extremely long version number"
  | versionDot => "did not find expected digit or '.' character"
  | versionRepeated => "found duplicate %YAML directive"
  | versionUnsupported => "found incompatible YAML document"
  | tagHandle => "did not find expected '!'"
  | tagHandleRepeated => "found duplicate %TAG directive"
  | tagHandleUndefined => "found undefined tag handle"
  | tagSpace => "did not find expected whitespace or line break"
  | tagEmpty => "did not find expected tag URI"
  | tagEscape => "did not find URI escaped octet"
  | tagUnclosed => "did not find the expected '>'"
  | anchorName => "did not find expected alphabetic or numeric character"
  | blockIndentZero => "found an indentation indicator equal to 0"
  | blockHeader => "did not find expected comment or line break"
  | tabIndentation => "found a tab character that violates indentation"
  | markerInScalar => "found unexpected document indicator"
  | endInScalar => "found unexpected end of stream"
  | escapeUnknown => "found unknown escape character"
  | escapeHex => "did not find expected hexdecimal number"
  | escapeCodePoint => "found invalid Unicode character escape code"
  | colonInScalar => "found unexpected ':'"
  | documentStart => "did not find expected <document start>"
  | nodeContent => "did not find expected node content"
  | sequenceEntry => "did not find expected '-' indicator"
  | mappingKey => "did not find expected key"
  | flowSequenceEnd => "did not find expected ',' or ']'"
  | flowMappingEnd => "did not find expected ',' or '\x7d'"

structure SyntaxError where
  problem : SyntaxProblem
  mark : Mark
  deriving DecidableEq, Repr

abbrev Scan := Except SyntaxError

def Cursor.fail (c : Cursor) (p : SyntaxProblem) : Scan α := .error ⟨p, c.mark⟩

end ModuleCompiler.Yaml
