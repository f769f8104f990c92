import LineCalc.Yaml.Tag
/-!
# Problems in YAML texts

What can be wrong with a YAML text, in words, and the line that is named for it.
-/
namespace LineCalc.Yaml

/-- A position in a text: lines and columns are counted from zero. -/
structure Mark where
  index : Nat
  line : Nat
  column : Nat
  deriving DecidableEq, Repr

/-- What is wrong with a YAML text. -/
inductive Cause where
  -- characters
  | leadingOctet
  | incompleteSequence
  | trailingOctet
  | sequenceLength
  | unicodeCharacter
  | incompleteUnit
  | incompletePair
  | unexpectedLowSurrogate
  | expectedLowSurrogate
  | controlCharacter
  -- tokens
  | noToken
  | noColon
  | noSequenceEntry
  | noMappingKey
  | noMappingValue
  | tabIndentation
  | documentIndicator
  | endOfStream
  | unknownEscape
  | noHexNumber
  | escapeCode
  | noAnchorName
  | zeroIndentation
  | tabForSpace
  | noLineEnd
  | noTagMark
  | noTagName
  | noTagEnd
  | noTagOctet
  | tagLeadingOctet
  | tagTrailingOctet
  | noWhitespace
  | noWhitespaceOrBreak
  | noDirectiveName
  | directiveCharacter
  | unknownDirective
  | noVersionNumber
  | longVersionNumber
  | noVersionPoint
  -- structure
  | noNode
  | noDash
  | noKey
  | noSequenceEnd
  | noMappingEnd
  | tooDeep
  | repeatedVersion
  | foreignVersion
  | repeatedTagHandle
  | noDocumentStart
  | unknownTagHandle
  -- meaning
  | unknownAnchor (name : Bytes)
  | circularAnchor (name : Bytes)
  | mergedScalar
  | invalidBase64
  | wrongTag (found : Tag) (text : Bytes) (stated : Tag)
  deriving DecidableEq, Repr

/-- The words for what is wrong. -/
def Cause.text : Cause → Bytes
  | leadingOctet => "invalid leading UTF-8 octet"
  | incompleteSequence => "incomplete UTF-8 octet sequence"
  | trailingOctet => "invalid trailing UTF-8 octet"
  | sequenceLength => "invalid length of a UTF-8 sequence"
  | unicodeCharacter => "invalid Unicode character"
  | incompleteUnit => "incomplete UTF-16 character"
  | incompletePair => "incomplete UTF-16 surrogate pair"
  | unexpectedLowSurrogate => "unexpected low surrogate area"
  | expectedLowSurrogate => "expected low surrogate area"
  | controlCharacter => "control characters are not allowed"
  | noToken => "found character that cannot start any token"
  | noColon => "could not find expected ':'"
  | noSequenceEntry => "block sequence entries are not allowed in this context"
  | noMappingKey => "mapping keys are not allowed in this context"
  | noMappingValue => "mapping values are not allowed in this context"
  | tabIndentation => "found a tab character that violates indentation"
  | documentIndicator => "found unexpected document indicator"
  | endOfStream => "found unexpected end of stream"
  | unknownEscape => "found unknown escape character"
  | noHexNumber => "did not find expected hexdecimal number"
  | escapeCode => "found invalid Unicode character escape code"
  | noAnchorName => "did not find expected alphabetic or numeric character"
  | zeroIndentation => "found an indentation indicator equal to 0"
  | tabForSpace => "found a tab character where an indentation space is expected"
  | noLineEnd => "did not find expected comment or line break"
  | noTagMark => "did not find expected '!'"
  | noTagName => "did not find expected tag URI"
  | noTagEnd => "did not find the expected '>'"
  | noTagOctet => "did not find URI escaped octet"
  | tagLeadingOctet => "found an incorrect leading UTF-8 octet"
  | tagTrailingOctet => "found an incorrect trailing UTF-8 octet"
  | noWhitespace => "did not find expected whitespace"
  | noWhitespaceOrBreak => "did not find expected whitespace or line break"
  | noDirectiveName => "could not find expected directive name"
  | directiveCharacter => "found unexpected non-alphabetical character"
  | unknownDirective => "found unknown directive name"
  | noVersionNumber => "did not find expected version number"
  | longVersionNumber => "found extremely long version number"
  | noVersionPoint => "did not find expected digit or '.' character"
  | noNode => "did not find expected node content"
  | noDash => "did not find expected '-' indicator"
  | noKey => "did not find expected key"
  | noSequenceEnd => "did not find expected ',' or ']'"
  | noMappingEnd => "did not find expected ',' or '\x7d'"
  | tooDeep => "exceeded max depth of 10000"
  | repeatedVersion => "found duplicate %YAML directive"
  | foreignVersion => "found incompatible YAML document"
  | repeatedTagHandle => "found duplicate %TAG directive"
  | noDocumentStart => "did not find expected <document start>"
  | unknownTagHandle => "found undefined tag handle"
  | unknownAnchor name => utf8 "unknown anchor '" ++ name ++ utf8 "' referenced"
  | circularAnchor name => utf8 "anchor '" ++ name ++ utf8 "' value contains itself"
  | mergedScalar => "map merge requires map or sequence of maps as the value"
  | invalidBase64 => "!!binary value contains invalid base64 data"
  | wrongTag found text stated =>
    utf8 "cannot decode " ++ found.text ++ utf8 " `" ++ text ++ utf8 "` as a " ++ stated.text

/-- Something wrong, and the number of the line that is named; zero if none is. -/
structure Problem where
  cause : Cause
  line : Nat
  deriving DecidableEq, Repr

namespace Problem

/-- A problem that no line is named for. -/
def unplaced (c : Cause) : Problem := ⟨c, 0⟩

/-- The line that is named for a problem: that of its context, or if that is the first line, that
of the problem. -/
def lineOf (context place : Mark) : Nat := if context.line = 0 then place.line else context.line

/-- A problem with characters: the first line is not named, the others by their number. -/
def inText (c : Cause) (context place : Mark) : Problem :=
  ⟨c, if lineOf context place = 0 then 0 else lineOf context place + 1⟩

/-- A problem with the structure: it is named by the number of the line before. -/
def inStructure (c : Cause) (context place : Mark) : Problem := ⟨c, lineOf context place⟩

/-- The problem in words. -/
def message (p : Problem) : Bytes :=
  (if p.line = 0 then [] else utf8 "line " ++ Bytes.ofNat p.line ++ utf8 ": ") ++ p.cause.text

end Problem

end LineCalc.Yaml
