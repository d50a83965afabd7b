/-!
# Faults of YAML texts

Why a text is no YAML document.
-/

namespace PawnQuery.Yaml

inductive Fault where
  | forbiddenCharacter
  | unexpectedCharacter
  | tabInIndentation
  /-- A line that must be a key has no colon. -/
  | missingColon
  | misplacedEntry
  | misplacedKey
  | misplacedValue
  | unexpectedColon
  | unendedQuote
  | documentMarkInQuote
  | badEscape
  | badAnchor
  | badTag
  | badDirective
  | badBlockHeader
  | missingContent
  | missingKey
  | missingEntry
  | missingSeparator
  | missingDocumentStart
  | unknownVersion
  | repeatedDirective
  | unknownHandle
  | unknownAnchor
  | severalDocuments
deriving DecidableEq, Repr, Inhabited

def Fault.message : Fault → String
  | .forbiddenCharacter => "control characters are not allowed"
  | .unexpectedCharacter => "found character that cannot start any token"
  | .tabInIndentation => "found a tab character where an indentation space is expected"
  | .missingColon => "could not find expected ':'"
  | .misplacedEntry => "block sequence entries are not allowed in this context"
  | .misplacedKey => "mapping keys are not allowed in this context"
  | .misplacedValue => "mapping values are not allowed in this context"
  | .unexpectedColon => "found unexpected ':'"
  | .unendedQuote => "found unexpected end of stream"
  | .documentMarkInQuote => "found unexpected document indicator"
  | .badEscape => "found unknown escape character"
  | .badAnchor => "did not find expected alphabetic or numeric character"
  | .badTag => "did not find expected tag URI"
  | .badDirective => "found unknown directive name"
  | .badBlockHeader => "did not find expected comment or line break"
  | .missingContent => "did not find expected node content"
  | .missingKey => "did not find expected key"
  | .missingEntry => "did not find expected '-' indicator"
  | .missingSeparator => "did not find expected ',' or closing bracket"
  | .missingDocumentStart => "did not find expected <document start>"
  | .unknownVersion => "found incompatible YAML document"
  | .repeatedDirective => "found duplicate directive"
  | .unknownHandle => "found undefined tag handle"
  | .unknownAnchor => "unknown anchor"
  | .severalDocuments => "deserializing from YAML containing more than one document"

end PawnQuery.Yaml
