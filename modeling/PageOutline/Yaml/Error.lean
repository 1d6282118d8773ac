/-!
# Failures of reading YAML

Text that is not YAML of the safe kind is malformed, whatever the reason. Bytes that are no text
fail on their own. The other failures lie in well-formed text whose scalars do not fit their tags.
-/

namespace PageOutline

/-- Why a text has no value. -/
inductive YamlError where
  | malformed
  /-- The bytes are no UTF-8 text. -/
  | notText
  /-- Collections nest too deep. -/
  | tooDeep
  /-- A number, a day, a time or a character that does not exist. -/
  | noSuchValue
  /-- A number without any digit or sign. -/
  | emptyNumber
  /-- A truth value that is none of the words for one. -/
  | unknownFlag
  /-- A time that is not written as one. -/
  | unknownTime
  /-- A time that is given as the default value of a mapping. -/
  | nestedTime
  /-- A number of a character, or the weight of a place in base sixty, that is too great to be
  used. -/
  | tooGreat
deriving DecidableEq

end PageOutline
