import EventQuery.Text.Regex.Compile

/-!
Searching a text with a program. All ways through the program are followed at once: between two
bytes the search knows the set of places from which a byte can be read next, so each byte costs at
most one visit to each place.
-/

namespace EventQuery.Text

/-- The places reached between two bytes: those that wait for a byte, and whether one of them
accepts. `marks` holds for each place the last time at which it was reached. -/
structure Reached where
  marks : Array Nat
  waiting : List ByteStep
  accepted : Bool

namespace Program

/-- Follow jumps, forks and tests from some places, at a time between the given characters. -/
def follow (p : Program) (time : Nat) (previous next : Option Char) :
    Nat → List Nat → Reached → Reached
  | 0, _, r => r
  | _, [], r => r
  | fuel + 1, place :: places, r =>
    if r.marks[place]? = some time then follow p time previous next fuel places r
    else
      let r := { r with marks := r.marks.setIfInBounds place time }
      match p.instructions[place]? with
      | some (.jump n) => follow p time previous next fuel (n :: places) r
      | some (.fork ns) => follow p time previous next fuel (ns ++ places) r
      | some (.look test n) =>
        follow p time previous next fuel
          (if test.holds previous next then n :: places else places) r
      | some (.read step) =>
        follow p time previous next fuel places { r with waiting := step :: r.waiting }
      | some (.branch steps) =>
        follow p time previous next fuel places { r with waiting := steps ++ r.waiting }
      | some .accept => { r with accepted := true }
      | some .fail | none => follow p time previous next fuel places r

/-- The places to which the waiting steps lead over a byte. -/
def nextPlaces (byte : Nat) (waiting : List ByteStep) : List Nat :=
  waiting.filterMap fun s =>
    if s.bytes.first ≤ byte && byte ≤ s.bytes.last then some s.next else none

/-- The places reached from others; a program has fewer ways between its places than bytes of
memory. -/
def reach (p : Program) (time : Nat) (previous next : Option Char) (places : List Nat)
    (marks : Array Nat) : Reached :=
  p.follow time previous next (p.memory + places.length + 1) places ⟨marks, [], false⟩

/-- Read the bytes of a character. At its end the search may also begin anew. -/
def readBytes (p : Program) (time : Nat) (c : Char) (next : Option Char) :
    List Nat → Reached → Reached
  | [], r => r
  | [b], r => p.reach time (some c) next (nextPlaces b r.waiting ++ [p.start]) r.marks
  | b :: bytes, r =>
    readBytes p (time + 1) c next bytes
      (p.reach time (some c) next (nextPlaces b r.waiting) r.marks)

/-- Whether a match ends in the characters ahead, or has ended before them. -/
def searchFrom (p : Program) (time : Nat) : List Char → Reached → Bool
  | [], r => r.accepted
  | c :: cs, r =>
    if r.accepted then true
    else searchFrom p (time + 4) cs (p.readBytes time c cs.head? (bytesOf c) r)

/-- Whether some part of a text matches. -/
def occursIn (p : Program) (text : String) : Bool :=
  let cs := text.toList
  p.searchFrom 2 cs (p.reach 1 none cs.head? [p.start] (Array.replicate p.instructions.size 0))

end Program

end EventQuery.Text
