import EventQuery.Text.Property.Folding
import EventQuery.Text.Regex.Basic

/-!
The meaning of patterns: flags are applied, properties are looked up and classes are computed. A
pattern has no meaning where a property is unknown, or where it would match bytes that are no
characters.
-/

namespace EventQuery.Text

/-- The flags in force at a place of a pattern. -/
structure PatternFlags where
  ignoreCase : Bool
  multiLine : Bool
  dotAll : Bool
  swapGreed : Bool
  unicode : Bool
  carriageReturns : Bool
  deriving DecidableEq, Repr

namespace PatternFlags

/-- The flags at the start of a pattern. -/
def initial : PatternFlags := ⟨false, false, false, false, true, false⟩

/-- Set one flag. White space has lost its meaning once a pattern is read. -/
def set (flags : PatternFlags) : PatternFlag × Bool → PatternFlags
  | (.ignoreCase, on) => { flags with ignoreCase := on }
  | (.multiLine, on) => { flags with multiLine := on }
  | (.dotAll, on) => { flags with dotAll := on }
  | (.swapGreed, on) => { flags with swapGreed := on }
  | (.unicode, on) => { flags with unicode := on }
  | (.carriageReturns, on) => { flags with carriageReturns := on }
  | (.extended, _) => flags

def setAll (flags : PatternFlags) (settings : FlagSettings) : PatternFlags :=
  settings.foldl set flags

end PatternFlags

/-- The characters of a kind. -/
def CharKind.set (unicode : Bool) : CharKind → CharSet
  | .digit => if unicode then Property.decimalNumbers else Property.decimalNumbers.inter .ascii
  | .space => if unicode then Property.whiteSpace else Property.whiteSpace.inter .ascii
  | .word => if unicode then Property.wordChars else Property.wordChars.inter .ascii

/-- The characters of a kind of ASCII characters. -/
def AsciiKind.set : AsciiKind → CharSet
  | .alnum => CharSet.ascii.inter (.unionAll [Property.letters, Property.decimalNumbers])
  | .alpha => CharSet.ascii.inter Property.letters
  | .ascii => .ascii
  | .blank => .ofCodes [9, 32]
  | .cntrl => CharSet.ascii.inter Property.controls
  | .digit => CharSet.ascii.inter Property.decimalNumbers
  | .graph => .between 33 126
  | .lower => CharSet.ascii.inter Property.lowercaseLetters
  | .print => .between 32 126
  | .punct => CharSet.ascii.inter (Property.punctuation.union Property.symbols)
  | .space => CharSet.ascii.inter Property.whiteSpace
  | .upper => CharSet.ascii.inter Property.uppercaseLetters
  | .word => CharSet.ascii.inter Property.wordChars
  | .xdigit => Property.asciiHexDigits

/-- The operation on classes. -/
def ClassOperation.apply : ClassOperation → CharSet → CharSet → CharSet
  | .intersection => .inter
  | .difference => .diff
  | .symmetricDifference => .symmDiff

namespace PatternFlags

/-- Add the variants in case that the flags ask for. -/
def foldCase (flags : PatternFlags) (s : CharSet) : CharSet :=
  if !flags.ignoreCase then s else if flags.unicode then s.closeUnderCase else s.closeUnderAsciiCase

/-- A class that may be negated. Without Unicode a class holds bytes, and those beyond ASCII are no
characters. -/
def finish (flags : PatternFlags) (negated : Bool) (s : CharSet) : Option CharSet :=
  let s := if negated then s.complement else s
  if flags.unicode || s.isAscii then some s else none

/-- Whether a character may stand in a class. -/
def allows (flags : PatternFlags) (c : PatternChar) : Bool := flags.unicode || c.char.toNat < 128

/-- The characters of a property, which can only be asked for with Unicode. -/
def property? (flags : PatternFlags) (query : PropertyQuery) (negated : Bool) : Option CharSet :=
  if flags.unicode then query.find?.bind fun s => flags.finish negated (flags.foldCase s) else none

end PatternFlags

mutual

/-- The characters of a class. -/
def ClassPattern.set? (flags : PatternFlags) : ClassPattern → Option CharSet
  | .char c => if flags.allows c then some (.single c.char) else none
  | .range first last =>
    if flags.allows first && flags.allows last then some (.between first.char.toNat last.char.toNat)
    else none
  | .ascii k negated => flags.finish negated (flags.foldCase k.set)
  | .property query negated => flags.property? query negated
  | .kind k negated => flags.finish negated (k.set flags.unicode)
  | .bracketed inner negated =>
    (set? flags inner).bind fun s => flags.finish negated (flags.foldCase s)
  | .union items => (sets? flags items).map .unionAll
  | .operation op left right =>
    match set? flags left, set? flags right with
    | some s, some t => some (op.apply (flags.foldCase s) (flags.foldCase t))
    | _, _ => none

/-- The characters of each of some classes. -/
def ClassPattern.sets? (flags : PatternFlags) : List ClassPattern → Option (List CharSet)
  | [] => some []
  | item :: items =>
    match ClassPattern.set? flags item, sets? flags items with
    | some s, some rest => some (s :: rest)
    | _, _ => none

end

namespace PatternFlags

/-- The expression of a character. A byte beyond ASCII is no character. -/
def ofChar (flags : PatternFlags) (c : PatternChar) : Option Regex :=
  if !flags.unicode && c.byte && 128 ≤ c.char.toNat then none
  else
    match (flags.foldCase (.single c.char)).only? with
    | some _ => some (.literal [c.char])
    | none => some (.ofClass (flags.foldCase (.single c.char)) !flags.unicode)

/-- The expression of a dot, which leaves out the ends of lines unless the flags say otherwise. -/
def ofDot (flags : PatternFlags) : Option Regex :=
  if !flags.unicode then none
  else if flags.dotAll then some (.ofClass .all false)
  else
    some (.ofClass (CharSet.ofCodes (if flags.carriageReturns then [10, 13] else [10])).complement
      false)

/-- The test of an anchor. -/
def lookOf (flags : PatternFlags) : Anchor → Look
  | .lineStart => if flags.multiLine then .lineStart flags.carriageReturns else .textStart
  | .lineEnd => if flags.multiLine then .lineEnd flags.carriageReturns else .textEnd
  | .textStart => .textStart
  | .textEnd => .textEnd
  | .word edge => .word edge flags.unicode

end PatternFlags

mutual

/-- The expression that a pattern means under some flags, and the flags behind it. -/
def Pattern.regex? (flags : PatternFlags) : Pattern → Option (Regex × PatternFlags)
  | .empty => some (.empty, flags)
  | .settings list => some (.empty, flags.setAll list)
  | .char c => (flags.ofChar c).map (·, flags)
  | .dot => flags.ofDot.map (·, flags)
  | .anchor test => some (.look (flags.lookOf test), flags)
  | .property query negated => (flags.property? query negated).map (Regex.ofClass · false, flags)
  | .kind k negated =>
    (flags.finish negated (k.set flags.unicode)).map (Regex.ofClass · !flags.unicode, flags)
  | .bracketed inner negated =>
    (inner.set? flags).bind fun s =>
      (flags.finish negated (flags.foldCase s)).map (Regex.ofClass · !flags.unicode, flags)
  | .repeated inner least greatest greedy =>
    match regex? flags inner with
    | some (r, flags) => some (r.copies least greatest (greedy != flags.swapGreed), flags)
    | none => none
  | .group (.capture index) inner =>
    match regex? flags inner with
    | some (r, _) => some (.capture index r, flags)
    | none => none
  | .group (.plain list) inner =>
    match regex? (flags.setAll list) inner with
    | some (r, _) => some (r, flags)
    | none => none
  | .alternation branches =>
    match regexes? flags branches with
    | some (rs, flags) => some (.oneOf rs, flags)
    | none => none
  | .sequence parts =>
    match regexes? flags parts with
    | some (rs, flags) => some (.inRow rs, flags)
    | none => none

/-- The expressions of patterns, each under the flags behind the one before it. -/
def Pattern.regexes? (flags : PatternFlags) : List Pattern → Option (List Regex × PatternFlags)
  | [] => some ([], flags)
  | p :: ps =>
    match Pattern.regex? flags p with
    | some (r, flags) =>
      match regexes? flags ps with
      | some (rs, flags) => some (r :: rs, flags)
      | none => none
    | none => none

end

end EventQuery.Text
