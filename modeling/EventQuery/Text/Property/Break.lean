import EventQuery.Text.Property.Binary
import EventQuery.Text.Property.Script

/-!
The classes of characters by which text is divided into visible units, words and sentences. Each
division is given by rules in order of precedence: a character belongs to the first class whose rule
holds of it.
-/

namespace EventQuery.Text.Property

/-- The sets of rules in order of precedence, less the characters that earlier rules have taken. -/
def byPrecedence (taken : CharSet) : List (List String × CharSet) → List (List String × CharSet)
  | [] => []
  | (names, rule) :: rest => (names, rule.diff taken) :: byPrecedence (taken.union rule) rest

/-- The scripts whose words are not set apart. -/
def complexContext : CharSet := .unionAll
    (["ahom", "khmr", "laoo", "mymr", "talu", "tale", "lana", "tavt", "thai"].filterMap script?)

/-- The digits with the marks between them, of ordinary width. -/
def lineNumeric : CharSet := (decimalNumbers.diff (span 0xFF10 0xFF19)).union (span 0x66B 0x66C)

/-- The Hangul syllables without a final consonant. -/
def openSyllables : CharSet := .ofCodes ((List.range 399).map fun i => 0xAC00 + 28 * i)

/-- Spacing marks that stand apart from the character before them. -/
def apartMarks : CharSet := .unionAll
    [span 0x102B 0x102C, span 0x1038 0x1038, span 0x1062 0x1064, span 0x1067 0x106D,
     span 0x1083 0x1083, span 0x1087 0x108C, span 0x108F 0x108F, span 0x109A 0x109C,
     span 0x1A61 0x1A61, span 0x1A63 0x1A64, span 0xAA7B 0xAA7B, span 0xAA7D 0xAA7D,
     span 0x11720 0x11721]

/-- Consonants that are written before the consonant they precede. -/
def prefixedConsonants : CharSet := .ofCodes
    [0xD4E, 0x111C2, 0x111C3, 0x113D1, 0x1193F, 0x11941, 0x11A3A, 0x11A84, 0x11A85, 0x11A86,
     0x11A87, 0x11A88, 0x11A89, 0x11D46, 0x11F02]

/-- The classes for the division into visible units. -/
def graphemeBreaks : List (List String × CharSet) := byPrecedence .empty
    [(["cr"], .single '\r'), (["lf"], .single '\n'), (["zwj"], span 0x200D 0x200D),
     (["ex", "extend"], graphemeExtend.union emojiModifiers),
     (["cn", "control"],
      (CharSet.unionAll
        [lineSeparators, paragraphSeparators, controls, formats,
         unassigned.inter defaultIgnorable]).diff
        prependedConcatenationMarks),
     (["ri", "regionalindicator"], regionalIndicators),
     (["pp", "prepend"], prependedConcatenationMarks.union prefixedConsonants),
     (["l"], (span 0x1100 0x115F).union (span 0xA960 0xA97C)),
     (["v"],
      .unionAll
        [span 0x1160 0x11A7, span 0xD7B0 0xD7C6, span 0x16D63 0x16D63, span 0x16D67 0x16D6A]),
     (["t"], (span 0x11A8 0x11FF).union (span 0xD7CB 0xD7FB)), (["lv"], openSyllables),
     (["lvt"], span 0xAC00 0xD7A3),
     (["sm", "spacingmark"], (spacingMarks.diff apartMarks).union (.ofCodes [0xE33, 0xEB3]))]

/-- Symbols that count as letters of words. -/
def wordSymbols : CharSet := .unionAll
    [span 0xB8 0xB8, span 0x2C2 0x2C5, span 0x2D2 0x2D7, span 0x2DE 0x2DF, span 0x2E5 0x2EB,
     span 0x2ED 0x2ED, span 0x2EF 0x2FF, span 0x55A 0x55C, span 0x55E 0x55E, span 0x58A 0x58A,
     span 0x5F3 0x5F3, span 0xA708 0xA716, span 0xA720 0xA721, span 0xA789 0xA78A,
     span 0xAB5B 0xAB5B]

/-- The classes for the division into words. -/
def wordBreaks : List (List String × CharSet) := byPrecedence .empty
    [(["cr"], .single '\r'), (["lf"], .single '\n'),
     (["nl", "newline"], .ofCodes [0xB, 0xC, 0x85, 0x2028, 0x2029]), (["zwj"], span 0x200D 0x200D),
     (["extend"], .unionAll [graphemeExtend, spacingMarks, emojiModifiers]),
     (["ri", "regionalindicator"], regionalIndicators),
     (["fo", "format"], formats.diff (span 0x200B 0x200B)),
     (["ka", "katakana"], .unionAll
       [(script? "kana").getD .empty, span 0x3031 0x3035, span 0x309B 0x309C,
        .ofCodes [0x30A0, 0x30FC, 0xFF70]]),
     (["hl", "hebrewletter"], otherLetters.inter ((script? "hebr").getD .empty)),
     (["sq", "singlequote"], .single '\''), (["dq", "doublequote"], .single '"'),
     (["mb", "midnumlet"], midNumberLetters), (["ml", "midletter"], midLetters),
     (["mn", "midnum"], .ofCodes
       [0x2C, 0x3B, 0x37E, 0x589, 0x60C, 0x60D, 0x66C, 0x7F8, 0x2044, 0xFE10, 0xFE14, 0xFE50,
        0xFE54, 0xFF0C, 0xFF1B]),
     (["nu", "numeric"], lineNumeric.union (span 0xFF10 0xFF19)),
     (["ex", "extendnumlet"], connectorPunctuation.union (span 0x202F 0x202F)),
     (["wsegspace"], spaceSeparators.diff (.ofCodes [0xA0, 0x2007])),
     (["le", "aletter"],
      (alphabetic.union wordSymbols).diff
        (.unionAll [ideographs, complexContext, (script? "hira").getD .empty]))]

/-- The Georgian letters, which have no case within sentences. -/
def georgianSmall : CharSet := (span 0x10D0 0x10FA).union (span 0x10FD 0x10FF)

/-- The Georgian capital forms. -/
def georgianCapitals : CharSet := (span 0x1C90 0x1CBA).union (span 0x1CBD 0x1CBF)

/-- Quotation marks that are neither opening nor closing. -/
def plainQuotes : CharSet := .unionAll
    [.ofCodes [0x22, 0x27], span 0x275B 0x2760, span 0x2E00 0x2E01, span 0x2E06 0x2E08,
     span 0x2E0B 0x2E0B, span 0x1F676 0x1F678]

/-- The classes for the division into sentences. -/
def sentenceBreaks : List (List String × CharSet) := byPrecedence .empty
    [(["cr"], .single '\r'), (["lf"], .single '\n'),
     (["se", "sep"], .ofCodes [0x85, 0x2028, 0x2029]),
     (["ex", "extend"], .unionAll [graphemeExtend, spacingMarks, span 0x200D 0x200D]),
     (["fo", "format"], formats), (["sp"], whiteSpace),
     (["lo", "lower"], lowercase.diff georgianSmall),
     (["up", "upper"], (titlecaseLetters.union uppercase).diff georgianCapitals),
     (["le", "oletter"], alphabetic.union (span 0x5F3 0x5F3)),
     (["nu", "numeric"], lineNumeric.union (span 0xFF10 0xFF19)),
     (["at", "aterm"], .ofCodes [0x2E, 0x2024, 0xFE52, 0xFF0E]),
     (["sc", "scontinue"], .ofCodes
       [0x2C, 0x2D, 0x3A, 0x3B, 0x37E, 0x55D, 0x60C, 0x60D, 0x7F8, 0x1802, 0x1808, 0x2013, 0x2014,
        0x3001, 0xFE10, 0xFE11, 0xFE13, 0xFE14, 0xFE31, 0xFE32, 0xFE50, 0xFE51, 0xFE54, 0xFE55,
        0xFE58, 0xFE63, 0xFF0C, 0xFF0D, 0xFF1A, 0xFF1B, 0xFF64]),
     (["st", "sterm"], sentenceTerminals),
     (["cl", "close"], .unionAll
       [openPunctuation, closePunctuation, initialPunctuation, finalPunctuation, plainQuotes])]

end EventQuery.Text.Property
