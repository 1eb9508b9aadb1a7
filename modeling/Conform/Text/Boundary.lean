import Conform.Text.Property

/-!
# Boundaries

What part a character plays where a text is cut into written units, words and sentences. A
character that plays none is in no set.
-/

namespace Conform.Text

namespace GraphemeBreak

def controls : CharSet := .ofHex
  "0-9 B-C E-1F 7F-9F AD 61C 180E 200B 200E-200F 2028-202E 2060-206F FEFF FFF0-FFFB 13430-1343F
   1BCA0-1BCA3 1D173-1D17A E0000-E001F E0080-E00FF E01F0-E0FFF"

def prepended : CharSet := .ofHex
  "600-605 6DD 70F 890-891 8E2 D4E 110BD 110CD 111C2-111C3 113D1 1193F 11941 11A3A 11A84-11A89
   11D46 11F02"

def extending : CharSet := .ofUnion [graphemeExtend, emojiModifiers]

/-- Marks with a space of their own that do not cling to what comes before. -/
def detachedMarks : CharSet := .ofHex
  "102B-102C 1038 1062-1064 1067-106D 1083 1087-108C 108F 109A-109C 1A61 1A63-1A64 AA7B AA7D
   11720-11721"

def spacingMarks : CharSet :=
  ((Category.spacingMarks.diff graphemeExtend).diff detachedMarks).union (.ofHex "E33 EB3")

def leadingJamo : CharSet := .ofHex "1100-115F A960-A97C"

def vowelJamo : CharSet := .ofHex "1160-11A7 D7B0-D7C6 16D63 16D67-16D6A"

def trailingJamo : CharSet := .ofHex "11A8-11FF D7CB-D7FB"

/-- Syllables without a trailing sound: every twenty-eighth. -/
def openSyllables : CharSet :=
  ⟨(List.range 399).map fun i => (0xAC00 + 28 * i, 0xAC00 + 28 * i)⟩

/-- Syllables with a trailing sound. -/
def closedSyllables : CharSet :=
  ⟨(List.range 399).map fun i => (0xAC01 + 28 * i, 0xAC1B + 28 * i)⟩

def named : List (List String × CharSet) :=
  [(["cn", "control"], controls),
    (["cr"], .ofHex "D"),
    (["ex", "extend"], extending),
    (["l"], leadingJamo),
    (["lf"], .ofHex "A"),
    (["lv"], openSyllables),
    (["lvt"], closedSyllables),
    (["pp", "prepend"], prepended),
    (["ri", "regionalindicator"], regionalIndicators),
    (["sm", "spacingmark"], spacingMarks),
    (["t"], trailingJamo),
    (["v"], vowelJamo),
    (["zwj"], .ofHex "200D")]

end GraphemeBreak

namespace WordBreak

def extending : CharSet := .ofUnion [graphemeExtend, Category.spacingMarks, emojiModifiers]

def formats : CharSet :=
  ((Category.formats.diff prependedConcatenationMarks).diff (.ofHex "200B-200D")).diff
    graphemeExtend

def numbersBesides : CharSet := .ofHex "600-605 66B 6DD 890-891 8E2 19DA 110BD 110CD"

def numeric : CharSet := Category.decimalNumbers.union numbersBesides

def hebrewLetters : CharSet := .ofHex
  "5D0-5EA 5EF-5F2 FB1D FB1F-FB28 FB2A-FB36 FB38-FB3C FB3E FB40-FB41 FB43-FB44 FB46-FB4F"

def katakana : CharSet := .ofHex
  "3031-3035 309B-309C 30A0-30FA 30FC-30FF 31F0-31FF 32D0-32FE 3300-3357 FF66-FF9D 1AFF0-1AFF3
   1AFF5-1AFFB 1AFFD-1AFFE 1B000 1B120-1B122 1B155 1B164-1B167"

/-- Letters of scripts that set no space between words. -/
def unspacedLetters : CharSet := .ofHex
  "E01-E30 E32-E33 E40-E46 E81-E82 E84 E86-E8A E8C-EA3 EA5 EA7-EB0 EB2-EB3 EBD EC0-EC4 EC6
   EDC-EDF 1000-102A 103F 1050-1055 105A-105D 1061 1065-1066 106E-1070 1075-1081 108E 1780-17B3
   17D7 17DC 1950-196D 1970-1974 1980-19AB 19B0-19C9 1A20-1A54 1AA7 3041-3096 309D-309F
   A9E0-A9E4 A9E6-A9EF A9FA-A9FE AA60-AA76 AA7A AA7E-AAAF AAB1 AAB5-AAB6 AAB9-AABD AAC0 AAC2
   AADB-AADD 11700-1171A 11740-11746 1B001-1B11F 1B132 1B150-1B152"

def lettersBesides : CharSet := .ofHex
  "B8 2C2-2C5 2D2-2D7 2DE-2DF 2E5-2EB 2ED 2EF-2FF 55A-55C 55E 58A 5F3 70F A708-A716 A720-A721
   A789-A78A AB5B"

def letters : CharSet :=
  let apart := CharSet.ofUnion [ideographic, extending, katakana, hebrewLetters, unspacedLetters]
  (alphabetic.diff apart).union lettersBesides

def midLetters : CharSet := .ofHex "3A B7 387 55F 5F4 2027 FE13 FE55 FF1A"

def midNumbers : CharSet := .ofHex
  "2C 3B 37E 589 60C-60D 66C 7F8 2044 FE10 FE14 FE50 FE54 FF0C FF1B"

def midLettersAndNumbers : CharSet := .ofHex "2E 2018-2019 2024 FE52 FF07 FF0E"

def connectors : CharSet := .ofHex "5F 202F 203F-2040 2054 FE33-FE34 FE4D-FE4F FF3F"

def named : List (List String × CharSet) :=
  [(["le", "aletter"], letters),
    (["cr"], .ofHex "D"),
    (["dq", "doublequote"], .ofHex "22"),
    (["extend"], extending),
    (["ex", "extendnumlet"], connectors),
    (["fo", "format"], formats),
    (["hl", "hebrewletter"], hebrewLetters),
    (["ka", "katakana"], katakana),
    (["lf"], .ofHex "A"),
    (["ml", "midletter"], midLetters),
    (["mn", "midnum"], midNumbers),
    (["mb", "midnumlet"], midLettersAndNumbers),
    (["nl", "newline"], .ofHex "B-C 85 2028-2029"),
    (["nu", "numeric"], numeric),
    (["ri", "regionalindicator"], regionalIndicators),
    (["sq", "singlequote"], .ofHex "27"),
    (["wsegspace"], .ofHex "20 1680 2000-2006 2008-200A 205F 3000"),
    (["zwj"], .ofHex "200D")]

end WordBreak

namespace SentenceBreak

def extending : CharSet := .ofUnion [graphemeExtend, Category.spacingMarks, .ofHex "200D"]

def formats : CharSet :=
  ((Category.formats.diff prependedConcatenationMarks).diff joinControls).diff extending

def lower : CharSet := (lowercaseSet.diff extending).diff georgianLetters

def georgianCapitals : CharSet := .ofHex "1C90-1CBA 1CBD-1CBF"

def upper : CharSet := (uppercaseSet.union Category.titlecaseLetters).diff georgianCapitals

def letters : CharSet :=
  (alphabetic.diff (.ofUnion [lower, upper, extending])).union (.ofHex "5F3 70F")

def numbersBesides : CharSet := .ofHex "600-605 66B-66C 6DD 890-891 8E2 19DA 110BD 110CD"

def numeric : CharSet := Category.decimalNumbers.union numbersBesides

/-- Full stops, which need not end a sentence. -/
def stops : CharSet := .ofHex "2E 2024 FE52 FF0E"

def terminals : CharSet := sentenceTerminals.diff stops

def quotesBesides : CharSet := .ofHex "22 27 275B-2760 2E00-2E01 2E06-2E08 2E0B 1F676-1F678"

def closing : CharSet :=
  .ofUnion [Category.openPunctuation, Category.closePunctuation, Category.initialPunctuation,
    Category.finalPunctuation, quotesBesides]

def continuing : CharSet := .ofHex
  "2C-2D 3A-3B 37E 55D 60C-60D 7F8 1802 1808 2013-2014 3001 FE10-FE11 FE13-FE14 FE31-FE32
   FE50-FE51 FE54-FE55 FE58 FE63 FF0C-FF0D FF1A-FF1B FF64"

def named : List (List String × CharSet) :=
  [(["at", "aterm"], stops),
    (["cl", "close"], closing),
    (["cr"], .ofHex "D"),
    (["ex", "extend"], extending),
    (["fo", "format"], formats),
    (["lf"], .ofHex "A"),
    (["lo", "lower"], lower),
    (["nu", "numeric"], numeric),
    (["le", "oletter"], letters),
    (["sc", "scontinue"], continuing),
    (["se", "sep"], .ofHex "85 2028-2029"),
    (["sp"], blanks.diff (.ofHex "A D 85 2028-2029")),
    (["st", "sterm"], terminals),
    (["up", "upper"], upper)]

end SentenceBreak

end Conform.Text
