import RobotMaze.Yaml.Tag

/-!
# What can be wrong with a YAML text

The causes for which a text is no document, and their wording.
-/

namespace RobotMaze.Yaml

/-- Why a text is malformed. -/
inductive Problem where
  -- characters
  | leadingByte
  | cutCharacter
  | trailingByte
  | longForm
  | noCharacter
  | cutUnit
  | lowUnitFirst
  | cutPair
  | lowUnitMissing
  | control
  -- scalars
  | documentMarkInQuotes
  | endInQuotes
  | unknownEscape
  | noHexDigit
  | noEscapedCharacter
  | tabInPlain
  | tabInBlock
  | indentationZero
  | noLineEnd
  -- properties and directives
  | noAnchorName
  | noTag
  | noTagMark
  | noTagEnd
  | noWordEnd
  | noBlank
  | noPercentByte
  | wrongLeadingPercent
  | wrongTrailingPercent
  | unknownDirective
  | noDirectiveName
  | directiveNameEnd
  | noVersionPoint
  | longVersion
  | noVersion
  | repeatedVersion
  | otherVersion
  | repeatedHandle
  | unknownHandle
  -- tokens
  | noColon
  | tooDeep
  | itemNotAllowed
  | keyNotAllowed
  | valueNotAllowed
  | noToken
  -- documents
  | noDocumentStart
  | noContent
  | noItem
  | noKey
  | noCommaInSequence
  | noCommaInMapping
  | unknownAnchor (name : Text)
  -- values
  | cyclicAlias (name : Text)
  | tooManyAliases
  | otherSpelling (found : Tag) (value : Text) (tag : Tag)
  | noBase64
  | mergeOfOther
  /-- A step took longer than its bound; this does not happen. -/
  | unfinished
  deriving DecidableEq, Repr

/-- The wording of a problem. -/
def Problem.text : Problem → Text
  | .leadingByte => "invalid leading UTF-8 octet"
  | .cutCharacter => "incomplete UTF-8 octet sequence"
  | .trailingByte => "invalid trailing UTF-8 octet"
  | .longForm => "invalid length of a UTF-8 sequence"
  | .noCharacter => "invalid Unicode character"
  | .cutUnit => "incomplete UTF-16 character"
  | .lowUnitFirst => "unexpected low surrogate area"
  | .cutPair => "incomplete UTF-16 surrogate pair"
  | .lowUnitMissing => "expected low surrogate area"
  | .control => "control characters are not allowed"
  | .documentMarkInQuotes => "found unexpected document indicator"
  | .endInQuotes => "found unexpected end of stream"
  | .unknownEscape => "found unknown escape character"
  | .noHexDigit => "did not find expected hexdecimal number"
  | .noEscapedCharacter => "found invalid Unicode character escape code"
  | .tabInPlain => "found a tab character that violates indentation"
  | .tabInBlock => "found a tab character where an indentation space is expected"
  | .indentationZero => "found an indentation indicator equal to 0"
  | .noLineEnd => "did not find expected comment or line break"
  | .noAnchorName => "did not find expected alphabetic or numeric character"
  | .noTag => "did not find expected tag URI"
  | .noTagMark => "did not find expected '!'"
  | .noTagEnd => "did not find the expected '>'"
  | .noWordEnd => "did not find expected whitespace or line break"
  | .noBlank => "did not find expected whitespace"
  | .noPercentByte => "did not find URI escaped octet"
  | .wrongLeadingPercent => "found an incorrect leading UTF-8 octet"
  | .wrongTrailingPercent => "found an incorrect trailing UTF-8 octet"
  | .unknownDirective => "found unknown directive name"
  | .noDirectiveName => "could not find expected directive name"
  | .directiveNameEnd => "found unexpected non-alphabetical character"
  | .noVersionPoint => "did not find expected digit or '.' character"
  | .longVersion => "found extremely long version number"
  | .noVersion => "did not find expected version number"
  | .repeatedVersion => "found duplicate %YAML directive"
  | .otherVersion => "found incompatible YAML document"
  | .repeatedHandle => "found duplicate %TAG directive"
  | .unknownHandle => "found undefined tag handle"
  | .noColon => "could not find expected ':'"
  | .tooDeep => "exceeded max depth of 10000"
  | .itemNotAllowed => "block sequence entries are not allowed in this context"
  | .keyNotAllowed => "mapping keys are not allowed in this context"
  | .valueNotAllowed => "mapping values are not allowed in this context"
  | .noToken => "found character that cannot start any token"
  | .noDocumentStart => "did not find expected <document start>"
  | .noContent => "did not find expected node content"
  | .noItem => "did not find expected '-' indicator"
  | .noKey => "did not find expected key"
  | .noCommaInSequence => "did not find expected ',' or ']'"
  | .noCommaInMapping => "did not find expected ',' or '\x7d'"
  | .unknownAnchor name => "unknown anchor '" ++ name ++ "' referenced"
  | .cyclicAlias name => "anchor '" ++ name ++ "' value contains itself"
  | .tooManyAliases => "document contains excessive aliasing"
  | .otherSpelling found value tag =>
    "cannot decode " ++ found.text ++ " `" ++ value ++ "` as a " ++ tag.text
  | .noBase64 => "!!binary value contains invalid base64 data"
  | .mergeOfOther => "map merge requires map or sequence of maps as the value"
  | .unfinished => "text is too long"

/-- A problem and the line that its message names, if it is not zero. -/
structure Malformation where
  line : Nat
  problem : Problem
  deriving DecidableEq, Repr

/-- The wording of a malformation. -/
def Malformation.message (m : Malformation) : Text :=
  let place : Text := if m.line = 0 then [] else utf8 "line " ++ Text.ofNat m.line ++ ": "
  place ++ m.problem.text

end RobotMaze.Yaml
