import Conform.Text.Letter

/-!
# Recent characters

Patterns know the characters of one edition, texts and the names of groups those of the next one.
The next edition only adds characters, save that it takes the case from one letter.
-/

namespace Conform.Text.Recent

def alphabetic : CharSet := .ofHex
  "88F C5C CDC A7CE-A7CF A7D2 A7D4 A7F1 10940-10959 10EC5-10EC7 10EFA-10EFB 11B60-11B67
   11DB0-11DDB 16EA0-16EB8 16EBB-16ED3 16FF2-16FF6 187F8-187FF 18D09-18D1E 18D80-18DF2
   1E6C0-1E6DE 1E6E0-1E6F5 1E6FE-1E6FF 2B73A-2B73F 2CEA2-2CEAD 323B0-33479"

def numbers : CharSet := .ofHex "11DE0-11DE9 16FF4-16FF6"

def cased : CharSet := .ofHex "A7CE-A7CF A7D2 A7D4 A7F1 16EA0-16EB8 16EBB-16ED3"

def caseIgnorable : CharSet := .ofHex
  "1ACF-1ADD 1AE0-1AEB A7F1 10EC5 10EFA-10EFB 11B60 11B62-11B64 11B66 11DD9 16FF2-16FF3 1E6E3
   1E6E6 1E6EE-1E6EF 1E6F5 1E6FF"

/-- The letter that has no case any more. -/
def uncased : CharSet := .ofHex "295"

end Conform.Text.Recent

namespace Conform.Text

def isAlphabetic (c : Char) : Bool := alphabetic.contains c || Recent.alphabetic.contains c

def isNumeric (c : Char) : Bool := Category.numbers.contains c || Recent.numbers.contains c

def isAlphanumeric (c : Char) : Bool := isAlphabetic c || isNumeric c

def isCased (c : Char) : Bool :=
  (cased.contains c && !Recent.uncased.contains c) || Recent.cased.contains c

def isCaseIgnorable (c : Char) : Bool :=
  caseIgnorable.contains c || Recent.caseIgnorable.contains c

end Conform.Text
