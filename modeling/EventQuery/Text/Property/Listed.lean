import EventQuery.Text.CharSet

/-!
The properties of characters that the Unicode character database lists, in its version 16.
-/

namespace EventQuery.Text.Property

/-- The hexadecimal digits in ASCII. -/
def asciiHexDigits : CharSet := .ofTable ["1c a 7 6 q 6"]

/-- Controls of the direction of writing. -/
def bidiControls : CharSet := .ofTable ["17g 1 54h 2 q 5 1j 4"]

/-- Dashes and minus signs. -/
def dashes : CharSet := .ofTable
    ["19 1 124 1 1f 1 2td 1 sl 1 1l5 6 1p 1 13 1 f 1 au 1 2dg 1 2 1 v 2 4 1 s 1 ce 1 j 1 33 1 14ls",
     "2 11 1 a 1 4p 1 2u8 1 8u 1"]

/-- Characters whose use is discouraged. -/
def deprecated : CharSet := .ofTable ["95 1 10p 1 1s3 1 1 1 1m1 2 1qd 6 jd 2 jh06 1"]

/-- Characters that change the meaning of others. -/
def diacritics : CharSet := .ofTable
    ["2m 1 1 1 1z 1 6 1 4 1 2 2 dz 4f 1 8 5 6 h 2 4 1 9 2 71 5 5t 1 1j 19 1 1 1 2 1 2 1 1 3n 8 4 2",
     "3q 2 4 2 3 3 1v r 2j b 1m b y 2 3i 8 15 a g s 1p 1 g 1 3 4 s 1 22 1 g 1 32 1 g 1 32 1 g 1 1b",
     "3 1o 1 g 1 7 1 3b 1 32 1 g 1 32 1 g 1 31 2 g 1 3g 1 33 1 c 6 1 1 2z 1 d 5 23 2 r 1*5 4 2 1u",
     "3 1 2 1q 1 34 1 1 2 14 2 4 5 p 7 1 1 a 2 jl 3 qc 2 u 1 44 b 9 1 9n 3 84 1 k 8 2 1 1c f 2 b",
     "2w 1 f 1 12 9 1i 2 1m 1 b 2 1u 2 1s 6 2a p 4 1 6 1 2 3 1e 1r 1c 10 5 c 11 b cd 1 1 3 b 3 d 3",
     "d 3 d 2 2k0 3 8t 1 e2 6 2x 4 2n 1 n76 1 c 2 1 1 s 2 2a 2 e y 2u 3 31 2 c 1 11 1 47 1 r i 1l",
     "4 10 1 2n 1 c 1 10 1 45 3 1t 4 1f 1 2s 5 9 3 3k 2 fn4 1 ld g 7i 1 1 1 1b 1 19 2 1v 1 l8 1 wv",
     "6 1 16 1 9 hp 3 4 1 4l 2 fv 6 12 1 q 5 b3 3 1y b 1d 4 5c 1 15 1 20 2 3c 2 1q 1 24 1 9 3 2w 2",
     "4y 2 28 2 g 1 o 7 3 5 2h 3 1 2 d 2 2n 1 3 1 3f 2 6z 2 3i 1 3a 2 37 1 7h 2 76 2 4 1 4c 1 2b 1",
     "i 1 29 1 bp 1 76 1 1 2 29 1 bt 2 n 1 44s f 8ux 1 1xc 5 1n 7 fo 2 f6 h 28 2 cn2 4 1 7 1 2 64h",
     "1a 2 n f4 3 3 6 8 8 2 7 u 4 2v6 1q 5e 7 af 1 1p 4 la 2 kg 7 31 3 1 3"]

/-- Characters that can be shown as pictures. -/
def emoji : CharSet := .ofTable
    ["z 1 6 1 5 a 33 1 4 1 68d 1 c 1 60 1 m 1 2i 6 f 2 a7 2 c 1 4m 1 p b 4 3 5j 1 6f 2 a 1 9 1 1m",
     "4 1 5 9 1 2 1 2 2 2 1 4 1 2 1 1 2 2 1 3 1 3 2 8 3 5 1 1 1 5 c b 2 2 1 1 2 1 1 i 1 2 2 i 6 1",
     "1 1 2 3 2 5 1 2 2 4 2 b 2 5 2 2 1 5 2 1 1 1 2 k 2 5 6 1 4 2 1 4 1 2 1 2 6 1 1 2 1*5 6 1 3 1",
     "6 1 a 2 f 1 2 1 4 1 1 1 4 3 1 1 b 2 1c 3 9 1 e 1 e 1 ac 2 cv 3 j 2 1f 1 4 1 yi 1 c 1 gp 1 1",
     "1 2fze 1 5m 1 4g 2 c 2 e 1 2 a 23 q 1 2 n 1 k 1 2 9 l 2 4u y 2 34 2 2 1 3 2 2b 2 3 1 7b 1 1r",
     "b 6 1 o 7 2 2 8 c 1 2 4 2 1 4 2 d 2 2 1 8 2 9 1 5 3 c 3 8 3 2 1 1 1 4 1 6 1 3 1 6 2e 1c 1y 5",
     "8 2 3 4 a 3 1 1 2 3 1 2 a 6b c 4 1 7v 1b 1 a 1 55 34 d 3 a 5 1k 7 f 2 b 6 9"]

/-- Parts of pictures that do not stand alone. -/
def emojiComponents : CharSet := .ofTable
    ["z 1 6 1 5 a 6ab 1 5x 1 17or 1 1c5y q e3 5 14g 4 gw30 2o"]

/-- Skin tones. -/
def emojiModifiers : CharSet := .ofTable ["2qrf 5"]

/-- Pictures that take a skin tone. -/
def emojiModifierBases : CharSet := .ofTable
    ["7j1 1 63 1 g 4 2iyf 1 1o 3 2 1 2 3 39 2 2 b l j 3 1 4 3 1 3 7 1 1 1 o 1 5l 2 4 1 l 1 4 2 4u",
     "3 3 5 2b 1 g 3 9 1 b 1 fz 1 2 1 8 8 6 1 9 a 2 3 1k 1 1p 2 1 2 1 1 h 3 1 d 6d 3 16 9"]

/-- Characters that are shown as pictures by default. -/
def emojiPresentation : CharSet := .ofTable
    ["6xm 2 5p 4 3 1 2 1 eh 2 l 2 1e c 17 1 j 1 d 1 8 2 h 2 5 2 8 1 5 1 l 1 7 2 1 1 4 1 2 1 7 1 4",
     "2 s 1 z 1 1 1 4 3 1 1 1p 3 o 1 e 1 nv 2 1f 1 4 1 2hf2 1 5m 1 5a 1 2 a 23 q 1 1 o 1 k 1 2 5 1",
     "3 l 2 4u x c 9 1 1y 1 m c 17 4 5 c h 3 1 3 1z 1 1 1 57 2 1r d 4 1 o i 1 q 2 d 1 2e 2d 1c 1y",
     "6 1 3 3 2 3 4 4 b 2 7 9 6b c 4 1 7v 1b 1 a 1 55 34 d 3 a 5 1k 7 f 2 b 6 9"]

/-- Pictures, with the code points kept for further ones. -/
def pictographs : CharSet := .ofTable
    ["4p 1 4 1 68d 1 c 1 60 1 m 1 2i 6 f 2 a7 2 c 1 2n 1 1y 1 p b 4 3 5j 1 6f 2 a 1 9 1 1m 4 1 6 1",
     "c 1 36 a 3a 2 b 1*4 6 1 3 1 6 1 a 2 f 1 2 1 4 1 1 1 4 3 1 1 b 5 19 3 9 1 e 1 e 1 ac 2 cv 3 j",
     "2 1f 1 4 1 yi 1 c 1 gp 1 1 1 2fza 74 d 3 v 1 1o 6 c 2 e 1 2 a i 1l r f a 1 k 1 2 9 1 4 9 c2",
     "5 8u 8 7e 1c 3k 38 c 2d 17 c 4 1k 8 a 6 14 8 u 2a c 1b 1 a 1 c9 74 se"]

/-- Characters that lengthen or repeat others. -/
def extenders : CharSet := .ofTable
    ["53 1 ew 2 oe 1 c9 1 hi 1 3t 1 2h 1 kw 1 3j 1 1tv 1 1k 1 gz 1 b2 1 1w 1 3ux 1 17 5 2v 2 2l 3",
     "lxy 1 16e 1 qq 1 m 1 3t 1 30 1 l 2 gor 1 1lc 2 157 1 r 1 4 1 xz 1 85 1 38 2 du 3 y7 1 fxl 2",
     "ws 2 1 1 me0 2 xd 1 no 3"]

/-- Signs that join two consonants. -/
def graphemeLinks : CharSet := .ofTable
    ["1u5 1 3j 1 3j 1 3j 1 3j 1 3j 1 3j 1 3j 1 31 2 g 1 3g 1 33 1 3j 1 5l 1 50 2 1cp 2 u 1 4d 1 i5",
     "1 6b 1 2t 2 1y 2 3gr 1 o7a 1 11 1 47 1 3y 1 30 1 8l 1 6u 1 imp 1 16u 1 15 1 e 1 1l 1 3d 2 3v",
     "1 38 1 50 1 2q 1 3k 3 35 1 3j 1 70 1 3j 1 3a 1 38 1 7h 1 77 2 4h 1 2b 1 i 1 29 1 bp 1 78 2",
     "29 1 bt 2 d0s 1"]

/-- The hexadecimal digits, also in their wide forms. -/
def hexDigits : CharSet := .ofTable ["1c a 7 6 q 6 1eax a 7 6 q 6"]

/-- Dashes that mark connections between parts of words. -/
def hyphens : CharSet := .ofTable ["19 1 3j 1 yk 1 3nf 1 1l5 2 2rp 1 kj 1 14kn 1 4p 1 2f 1"]

/-- Mathematical symbols that may begin identifiers. -/
def compatMathStart : CharSet := .ofTable
    ["6pu 1 4 1 m 1 2e8y 1 p 1 v 1 p 1 v 1 p 1 v 1 p 1 v 1 p 1"]

/-- Mathematical symbols that may continue identifiers. -/
def compatMathContinue : CharSet := .ofTable
    ["4y 2 5 1 69i 1 3 b 1 f ab 1 4 1 m 1 2e8y 1 p 1 v 1 p 1 v 1 p 1 v 1 p 1 v 1 p 1"]

/-- Operators that describe an ideograph by one part. -/
def idsUnaryOperators : CharSet := .ofTable ["9ha 2"]

/-- Operators that describe an ideograph by two parts. -/
def idsBinaryOperators : CharSet := .ofTable ["9gw 2 2 a dt 1"]

/-- Operators that describe an ideograph by three parts. -/
def idsTrinaryOperators : CharSet := .ofTable ["9gy 2"]

/-- Ideographs. -/
def ideographs : CharSet := .ofTable
    ["9hi 2 p 9 e 3 qt 534 1s g74 hkw a6 2 2y n4a 1 r 4qg 8 ye 15 a 76v b0 f7o wyo w 37e 6 66 2",
     "4g2 e 5rl f ha 1wi f2 15u 3t7 5 38g"]

/-- Controls of the joining of letters. -/
def joinControls : CharSet := .ofTable ["6bw 2"]

/-- Vowels that are written before the consonant they follow. -/
def logicalOrderExceptions : CharSet := .ofTable ["2tc 5 3f 5 25s 3 2 1 smy 2 2 1 1 2"]

/-- Marks that are ordered before others of their class. -/
def modifierCombiningMarks : CharSet := .ofTable ["190 2 2 1 3n 1 6 1 3 2 dd 2 1 3 3 1 v 1"]

/-- Code points that will never be characters. -/
def noncharacters : CharSet := .ofTable
    ["1e4w w em 2 1eke 2 1eke 2 1eke 2 1eke 2 1eke 2 1eke 2 1eke 2 1eke 2 1eke 2 1eke 2 1eke 2",
     "1eke 2 1eke 2 1eke 2 1eke 2 1eke 2"]

/-- Alphabetic characters that are no letters. -/
def otherAlphabetic : CharSet := .ofTable
    ["n9 1 t d g0 e 1 1 1 2 1 2 1 1 20 b 1c d 1 7 g 1 2t 7 4 4 2 2 4 1 z 1 u g 2u b 2t 2 3 9 1 3 1",
     "4 2y 1 1o c 3 7 6 k 1i 2 2 f 1 2 5 3 a 2 t 3 1m 7 2*4 a 1 a 2 t 3 1m 5 4 2 2 2 4 1 u 2 3 1 b",
     "3 1m 8 1 3 1 2 l 2 m 3 4 3 1m 7 2*4 9 2 a 2 u 1 1n 5 3 3 1 3 a 1 14 5 1l 7 1 3 1 3 8 2 b 2 t",
     "3 1m 7 1 3 1 3 8 2 b 2 f 1 c 4 1m 7 1 3 1 3 a 1 a 2 t 3 23 6 1 1 1 8 i 2 1p 1 2 7 i 1 2r 1 2",
     "6 1 2 g 1 4j j 9 b 1 10 32 c 1 1 2 4 n 4 4 3 1 3 2 7 3 4 d c 1 1 a 4 19w 2 u 2 u 2 u 2 1u j",
     "58 2 y 1 3a c 4 9 66 5 1l a 2 k 22 2 b 3 1d 5 1c f 1o 3 u 9 2 2 1l b 1e j bg y 1c1 1g 1rq w",
     "nsk 8 y 2 9u 1 8 1 n 5 2g 2 1e g 1 1 1l 1 12 5 s c 19 4 1c c 11 1 1v e c 1 8 2 19 3 1e 1 1 3",
     "2 2 5 1 18 5 5 1 6l 8 fn7 1 1nb 5 1ae 3 1 2 5 4 lw 4 1t 1 8x 2 27 1 77 3 1h e 19 2 b 3 19 9",
     "9 1 1p 3 10 c i 2 1l 3 1c d e 2 2k 9 2 1 6 1 2 1 4d a n 4 1m 7 2*4 a 1 a 2 2c 9 1 1 2 1 1 4",
     "1 2 2v d 1 3 2y i 6l 7 2 7 t 2 2a f 1 1 2y b 2v e 75 d 6v 6 1 2 2 2 3 1 1 1 3y 7 2 6 4 1 s a",
     "16 5 1 4 i b 1a e bb 8 1 7 2b m 1 e 3e 6 3 1 1 2 1 3 1 1 3 1 1u 5 1 2 1 4 9o 4 9 2 1 1 1c 7",
     "3 3 d0d h 2sg 1 1 1j 7 4 2l 2 f58 1 6zl 7 1 h 2 7 1 2 1 5 2s 1 1pz 1 1k8 q 6 q 6 q"]

/-- Invisible characters that are no formats. -/
def otherDefaultIgnorable : CharSet := .ofTable
    ["nj 1 2rz 2 18z 2 1pr 1 3cu 1 14qj 1 27 9 i9dz 1 1 u 2o 3k 6o 2s0"]

/-- Spacing marks and controls that extend the character before them. -/
def otherGraphemeExtend : CharSet := .ofTable
    ["1xa 1 o 1 9y 1 o 1 2u 1 o 1 6g 1 1 1 4 2 1 2 9 2 2v 1 o 1 3b 1 f 1 1th 1 u 1 sg 1 5 1 1 1 5",
     "2 2t 1 1z 2 t4 1 36p 2 nxf 1 30 1 gyl 2 3kw 1 38 1 7c 1 e 1 9 1 2o 1 9 1 2 1 1 3 5 1 68 1 c",
     "1 6p 1 7a 1 hl 1 c 1 16r 1 fxq 2 j8z 2 6 6 h419 2o"]

/-- Further characters of identifiers. -/
def otherIdContinue : CharSet := .ofTable ["53 1 jz 1 34x 9 19k 1 181 2 3cd 1 14rt 1"]

/-- Further characters that begin identifiers. -/
def otherIdStart : CharSet := .ofTable ["4ud 2 1ox 1 l 1 31o 2"]

/-- Small forms that are no lower-case letters. -/
def otherLowercase : CharSet := .ofTable
    ["4q 1 f 1 dx 9 7 2 u 5 2o 1 1g 1 2o1 1 2en 1r d 1 y 11 j5 1 d 1 g d 5v g nk q 1hu 2 o4e 2 5u",
     "1 3l 3 3 2 o2 4 9 1 i6u 1 2 3 1 16 1 9 16r9 1q"]

/-- Mathematical characters that are no mathematical symbols. -/
def otherMath : CharSet := .ofTable
    ["2m 1 oh 3 2 1 q 2 2 2 5k0 1 r 3 b 1 w 4 o 2 e 2 1t d 4 1 3 2 4 5 i 1 4 1 2 a 1 1 3 5 6 1 3 2",
     "2 2 1 3 1 6 3 4 5 5 23 5 2 4 1 2 1 2 1 1 1 5 2 2 4 2 4 i 2 2 1 1 1 7 1 1 6 2 82 4 4o 2 1 1 o",
     "1 h 1 cd 2 c 9 5 5 5 2 2 2 3 5 e 1 1 1 2 6 o 2 1l 1 1 1 t 4 9 2 9i 2 v a b7 m 1r 4 w 2 15yb",
     "1 1 1 4 1 5v 1 1 1 160x 2d 1 1z 1 2 2 1 2 2 2 4 1 c 1 1 1 7 1 1t 1 4 2 8 1 7 1 s 1 4 1 5 1 1",
     "3 7 1 9g 2 p 1 p 1 v 1 p 1 v 1 p 1 v 1 p 1 v 1 p 1 8 2 1e 4cg 4 1 r 1 2 1 1 2 1 1 a 1 4 1*4",
     "6 1 4 1*6 3 1 2 1 1 2 1*a 2 1 1 2 4 1 7 1 4 1 4 1 1 1 a 1 h 5 3 1 5 1 h"]

/-- Capital forms that are no upper-case letters. -/
def otherUppercase : CharSet := .ofTable ["6lc g na q 2ixs q 6 q 6 q"]

/-- Characters kept for the grammar of patterns. -/
def patternSyntax : CharSet := .ofTable
    ["x f a 7 q 4 1 1 q 4 y 7 1 1 1 2 1 1 1 2 4 1 4 1 3 1 n 1 v 1 654 o 8 f 2 j 1 a 8h k0 4g hi u",
     "vg e8 3k ap 3 4 p f 1 14i5 2 79 2"]

/-- White space in patterns. -/
def patternWhiteSpace : CharSet := .ofTable ["9 5 i 1 2s 1 688 2 o 2"]

/-- Marks that enclose the digits behind them. -/
def prependedConcatenationMarks : CharSet := .ofTable ["16o 6 5z 1 1d 1 ao 2 28 1 1g4a 1 f 1"]

/-- Quotation marks. -/
def quotationMarks : CharSet := .ofTable
    ["y 1 4 1 3n 1 f 1 670 8 p 2 2rr 1 cp 4 d 3 14pt 4 59 1 4 1 2i 2"]

/-- Radicals of ideographs. -/
def radicals : CharSet := .ofTable ["96o q 1 2h c 5y"]

/-- Letters that in pairs name regions. -/
def regionalIndicators : CharSet := .ofTable ["2qcm q"]

/-- Punctuation that ends sentences. -/
def sentenceTerminals : CharSet := .ofTable
    ["x 1 c 1 g 1 11l 1 43 3 50 1 17 3 6u 1 1p 1 1 1 3 2 85 2 1d0 2 ly 1 4 2 lh 1 5i 2 4d 2 19 1 5",
     "1 8q 2 9u 4 4i 2 a 2 2 2 t 3 57 2 1t 2 pw 1 n 2 9 3 2i7 3 8i 1 d 1 m 2 bx 1 n3w 1 7i 2 6b 1",
     "3 1 am 2 2e 2 2n 1 48 2 43 3 40 2 6x 1 g86 1 2 2 1n 1 3 2 4p 1 c 1 g 1 1t 1 25w 2 zh 5 18 4",
     "59 2 39 4 3j 3 3l 2 6 1 g 2 2g 2 1 2 30 1 8a 2 39 2 ad 2 5 f 2x 2 6x 3 ed 1 1 1 6z 2 2f 2 bo",
     "2 j8 2 22 2 euh 2 3p 1 1t 2 b 1 fd 2 88 1 feu 1 5wo 1"]

/-- Letters whose dot gives way to a mark. -/
def softDotted : CharSet := .ofTable
    ["2x 2 5g 1 7t 1 u 1 1g 1 k 1 8w 1 2q 1 1 1 4y1 1 1f 1 d 1 3 1 3o 1 4d 1 bp 1 5y 2 27m 1 2bol",
     "2 1e 2 1e 2 1e 2 1e 2 1e 2 1e 2 1e 2 1e 2 1e 2 1e 2 1e 2 1e 2 1om 1 8h 2 q 1"]

/-- Punctuation that ends parts of sentences. -/
def terminalPunctuation : CharSet := .ofTable
    ["x 1 a 1 1 1 b 2 3 1 n2 1 8 1 e9 1 1l 1 20 1 e 1 1 3 50 1 17 b 1 1 6j 2 1i 6 1 8 v 1 79 2 z8",
     "2 4s 1 4 6 8n 2 lx 8 lh 1 3g 3 1z 2 4d 3 3 1 13 4 2 2 8q 2 9u 4 4i 2 a 2 1 3 t 3 57 5 1q 2",
     "pw 1 n 2 9 3 2i7 3 8i 1 d 1 4 1 a 1 1 2 3 2 bw 2 n3v 2 7h 3 6b 5 am 2 2e 2 2n 1 47 3 43 3 3j",
     "1 g 2 6x 1 g86 1 2 2 1l 3 1 4 4p 1 a 1 1 1 b 2 3 1 1t 1 2 1 u2 1 1c 1 w6 1 5j 1 8m 2 48 6 1w",
     "6 2h 4 qg 5 18 4 59 7 34 4 3j 3 3l 2 6 1 g 2 2g 5 30 1 8a 2 39 3 c 2 9y 4 3 f 2x 2 6x 3 ed 1",
     "1 1 6z 2 2f 2 4 2 bi 3 19 1 hx 2 22 2 10r 5 dtl 2 3p 1 1t 3 a 1 fd 2 87 2 feu 1 5wn 4"]

/-- Ideographs of the unified repertoire. -/
def unifiedIdeographs : CharSet := .ofTable
    ["a9s 534 1s g74 hse 2 1 1 1 2 a 1*4 2 2 3 1fpy wyo w 37e 6 66 2 4g2 e 5rl f ha 3he 3t7 5 38g"]

/-- Selectors of the form of the character before them. -/
def variationSelectors : CharSet := .ofTable ["4qz 3 1 1 19f4 g i9yo 6o"]

/-- White space. -/
def whiteSpace : CharSet := .ofTable ["9 5 i 1 2s 1 q 1 4bj 1 1vj b t 2 5 1 1b 1 334 1"]

end EventQuery.Text.Property
