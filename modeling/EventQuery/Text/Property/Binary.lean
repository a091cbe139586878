import EventQuery.Text.Property.Category
import EventQuery.Text.Property.Listed

/-!
The properties of characters that follow from their general categories and from the listed
properties, and the names of the properties that a character has or has not.
-/

namespace EventQuery.Text.Property

/-- The characters with code points from one to another, for the short exceptions of a rule. -/
def span (first last : Nat) : CharSet := .between first last

def lowercase : CharSet := lowercaseLetters.union otherLowercase

def uppercase : CharSet := uppercaseLetters.union otherUppercase

/-- Characters of lower, upper or title case. -/
def cased : CharSet := .unionAll [lowercase, uppercase, titlecaseLetters]

def alphabetic : CharSet := .unionAll
    [lowercase, uppercase, titlecaseLetters, modifierLetters, otherLetters, letterNumbers,
     otherAlphabetic]

def math : CharSet := mathSymbols.union otherMath

/-- Marks that belong to the character before them. -/
def graphemeExtend : CharSet := .unionAll [enclosingMarks, nonspacingMarks, otherGraphemeExtend]

/-- Characters that begin a visible unit of text. -/
def graphemeBase : CharSet :=
  (CharSet.unionAll
    [controls, formats, privateUse, unassigned, lineSeparators, paragraphSeparators,
     graphemeExtend]).complement

/-- Punctuation within words: between letters. -/
def midLetters : CharSet :=
  .ofCodes [0x3A, 0xB7, 0x387, 0x55F, 0x5F4, 0x2027, 0xFE13, 0xFE55, 0xFF1A]

/-- Punctuation within words: between letters or between digits. -/
def midNumberLetters : CharSet := .ofCodes [0x2E, 0x2018, 0x2019, 0x2024, 0xFE52, 0xFF07, 0xFF0E]

/-- Characters that are passed over where the case of a word is found. -/
def caseIgnorable : CharSet := .unionAll
    [nonspacingMarks, enclosingMarks, formats, modifierLetters, modifierSymbols, midLetters,
     midNumberLetters, .single '\'']

/-- Characters that have no visible form by default. -/
def defaultIgnorable : CharSet :=
  (CharSet.unionAll [otherDefaultIgnorable, formats, variationSelectors]).diff
    (.unionAll [whiteSpace, span 0xFFF9 0xFFFB, span 0x13430 0x1343F, prependedConcatenationMarks])

/-- Characters that begin identifiers. -/
def idStart : CharSet :=
  (CharSet.unionAll [letters, letterNumbers, otherIdStart]).diff
    (patternSyntax.union patternWhiteSpace)

/-- Characters that continue identifiers. -/
def idContinue : CharSet :=
  (CharSet.unionAll
    [idStart, nonspacingMarks, spacingMarks, decimalNumbers, connectorPunctuation,
     otherIdContinue]).diff
    (patternSyntax.union patternWhiteSpace)

/-- Characters whose compatibility forms need not continue identifiers. -/
def compatibilityContinue : CharSet := .unionAll
    [span 0x37A 0x37A, span 0x309B 0x309C, span 0xFC5E 0xFC63, span 0xFDFA 0xFDFB,
     .ofCodes [0xFE70, 0xFE72, 0xFE74, 0xFE76, 0xFE78, 0xFE7A, 0xFE7C, 0xFE7E]]

/-- Characters that begin identifiers in every compatibility form. -/
def xidStart : CharSet :=
  idStart.diff (.unionAll [compatibilityContinue, .ofCodes [0xE33, 0xEB3], span 0xFF9E 0xFF9F])

/-- Characters that continue identifiers in every compatibility form. -/
def xidContinue : CharSet := idContinue.diff compatibilityContinue

/-- Characters that change in lower case: capitals and title case, with exceptions. -/
def changesWhenLowercased : CharSet :=
  (uppercase.union titlecaseLetters).symmDiff (.ofTable
    ["r6 3 5rh 1 4 1 3 3 2 3 2 1 3 5 6 1 3 1 3 2 2 2 1 1 a 2 5 1 2dve q*6 1 1 2 2 1 2 2 2 4 1 8 q",
     "q q 2 1 4 2 8 1 7 r 2 1 4 1 5 1 1 3 7 r q*b u p x p x p x p x p x 1 50l q 6 q 6 q"])

/-- Characters that change in upper case: small forms and title case, with exceptions. -/
def changesWhenUppercased : CharSet :=
  (lowercase.union titlecaseLetters).symmDiff (.ofTable
    ["4q 1 f 1 3h 1 2c 1 s 2 e 1 3 1 2q 1 i 6 r 1 2 1 1 1 2 3 2 1 4 1 5 2 1 1 2 2 1 7 1 2 1 1 2 3",
     "6 5 1 1 1 8 2 q 7 2 u 5 45 1 3l 1 9v 1 13 1 29f 1 2df 3d 1 3 1 g 1 1d 64 2 1 1 cx 1 d 1 g d",
     "31 1 3 2 3 1 r 1 4 1 4 1 2 2 8 4 27b 1 2 1 2 7 2u 1 o1j 2 42 2 1q 9 l 1 6 1 p 1 z 1 1 1 s 3",
     "3 3 mt z 1 7 1 e i6u 1 2 3 1 16 1 9 14db q q 7 1 i q q q 4 1 1 1 7 1 b q*h s s p 1 6 q p 1 6",
     "q p 1 6 q p 1 6 q p 1 6 1 1 1f8 a 1 k 6 6 79 1q"])

/-- Characters that change in title case. -/
def changesWhenTitlecased : CharSet := changesWhenUppercased.symmDiff (.ofTable
    ["ck 2 1 2 1 2 11 2 2xp 17 2 3 2vc 8*5 c 1 f 1 1b 1"])

/-- Characters that change in some case. -/
def changesWhenCasemapped : CharSet := .unionAll
    [changesWhenLowercased, changesWhenUppercased, changesWhenTitlecased]

/-- Characters that change when case is folded. -/
def changesWhenCasefolded : CharSet := changesWhenLowercased.symmDiff (.ofTable
    ["51 1 15 1 2x 1 1h 1 cl 1 3g 1 d 2 3 2 p 2 3 1 b5 1 2s8 2e 2 6 1oi 9 ep 2 6c 8*5 a 3 2 1 a 3",
     "2 1 16 3 2 1 rjs 28 fnk 7 c 5"])

/-- Characters of words. -/
def wordChars : CharSet :=
  .unionAll [alphabetic, marks, decimalNumbers, connectorPunctuation, joinControls]

/-- The names of the properties that a character has or has not, in small letters, with the
characters that have them. -/
def binaryProperties : List (List String × CharSet) :=
  [(["ahex", "asciihexdigit"], asciiHexDigits), (["alpha", "alphabetic"], alphabetic),
   (["bidic", "bidicontrol"], bidiControls), (["ci", "caseignorable"], caseIgnorable),
   (["cased"], cased), (["cwcf", "changeswhencasefolded"], changesWhenCasefolded),
   (["cwcm", "changeswhencasemapped"], changesWhenCasemapped),
   (["cwl", "changeswhenlowercased"], changesWhenLowercased),
   (["cwt", "changeswhentitlecased"], changesWhenTitlecased),
   (["cwu", "changeswhenuppercased"], changesWhenUppercased), (["dash"], dashes),
   (["di", "defaultignorablecodepoint"], defaultIgnorable), (["dep", "deprecated"], deprecated),
   (["dia", "diacritic"], diacritics), (["emoji"], emoji),
   (["ecomp", "emojicomponent"], emojiComponents), (["emod", "emojimodifier"], emojiModifiers),
   (["ebase", "emojimodifierbase"], emojiModifierBases),
   (["epres", "emojipresentation"], emojiPresentation),
   (["extpict", "extendedpictographic"], pictographs), (["ext", "extender"], extenders),
   (["grbase", "graphemebase"], graphemeBase), (["grext", "graphemeextend"], graphemeExtend),
   (["grlink", "graphemelink"], graphemeLinks), (["hex", "hexdigit"], hexDigits),
   (["hyphen"], hyphens), (["idcompatmathcontinue"], compatMathContinue),
   (["idcompatmathstart"], compatMathStart), (["idc", "idcontinue"], idContinue),
   (["ids", "idstart"], idStart), (["ideo", "ideographic"], ideographs),
   (["idsb", "idsbinaryoperator"], idsBinaryOperators),
   (["idst", "idstrinaryoperator"], idsTrinaryOperators),
   (["idsu", "idsunaryoperator"], idsUnaryOperators), (["joinc", "joincontrol"], joinControls),
   (["loe", "logicalorderexception"], logicalOrderExceptions), (["lower", "lowercase"], lowercase),
   (["math"], math), (["mcm", "modifiercombiningmark"], modifierCombiningMarks),
   (["nchar", "noncharactercodepoint"], noncharacters),
   (["oalpha", "otheralphabetic"], otherAlphabetic),
   (["odi", "otherdefaultignorablecodepoint"], otherDefaultIgnorable),
   (["ogrext", "othergraphemeextend"], otherGraphemeExtend),
   (["oidc", "otheridcontinue"], otherIdContinue), (["oids", "otheridstart"], otherIdStart),
   (["olower", "otherlowercase"], otherLowercase), (["omath", "othermath"], otherMath),
   (["oupper", "otheruppercase"], otherUppercase), (["patsyn", "patternsyntax"], patternSyntax),
   (["patws", "patternwhitespace"], patternWhiteSpace),
   (["pcm", "prependedconcatenationmark"], prependedConcatenationMarks),
   (["qmark", "quotationmark"], quotationMarks), (["radical"], radicals),
   (["ri", "regionalindicator"], regionalIndicators),
   (["sterm", "sentenceterminal"], sentenceTerminals), (["sd", "softdotted"], softDotted),
   (["term", "terminalpunctuation"], terminalPunctuation),
   (["uideo", "unifiedideograph"], unifiedIdeographs), (["upper", "uppercase"], uppercase),
   (["vs", "variationselector"], variationSelectors),
   (["wspace", "whitespace", "space"], whiteSpace), (["xidc", "xidcontinue"], xidContinue),
   (["xids", "xidstart"], xidStart)]

end EventQuery.Text.Property
