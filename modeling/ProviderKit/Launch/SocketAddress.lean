/-!
# Socket addresses

An address of version 4 is four numbers with points between them, and one of version 6
is eight groups of hexadecimal digits with colons between them.  In the latter one run
of zero groups may be left out, and the last two groups may be written as an address of
version 4, unless the run that is left out follows.  An address of version 6 stands in
brackets, with the number of its scope if that is not zero.  Behind a colon follows the
number of the service at the address.

A function that reads gives its result and the rest of the text.  An address is shown in
lower case, with the first of the longest runs of at least two zero groups left out.  An
address of version 4 inside version 6 shows its numbers.
-/

namespace ProviderKit

/-- An address and the number of a service there. -/
inductive SocketAddress where
  | v4 (octets : List Nat) (service : Nat)
  | v6 (groups : List Nat) (scope : Nat) (service : Nat)
deriving DecidableEq

namespace SocketAddress

/-- The value of a digit in a base of at most sixteen. -/
def digit? (base : Nat) (c : Char) : Option Nat :=
  let value :=
    if '0' ≤ c ∧ c ≤ '9' then c.toNat - '0'.toNat
    else if 'a' ≤ c ∧ c ≤ 'f' then c.toNat - 'a'.toNat + 10
    else if 'A' ≤ c ∧ c ≤ 'F' then c.toNat - 'A'.toNat + 10
    else base
  if value < base then some value else none

/-- The leading digits of a text, and the rest. -/
def spanDigitsIn (base : Nat) : List Char → List Nat × List Char
  | [] => ([], [])
  | c :: rest =>
    match digit? base c with
    | some value => let (values, remaining) := spanDigitsIn base rest; (value :: values, remaining)
    | none => ([], c :: rest)

/-- A number below a limit. -/
def readNumber (base limit : Nat) (text : List Char) : Option (Nat × List Char) :=
  match spanDigitsIn base text with
  | ([], _) => none
  | (digits, rest) =>
    let number := digits.foldl (fun number value => base * number + value) 0
    if number < limit then some (number, rest) else none

/-- One of the numbers of an address of version 4: at most three digits, without a
needless zero in front. -/
def readOctet (text : List Char) : Option (Nat × List Char) :=
  match spanDigitsIn 10 text with
  | (0 :: _ :: _, _) => none
  | (digits, _) => if digits.length ≤ 3 then readNumber 10 256 text else none

/-- One of the groups of an address of version 6: at most four digits. -/
def readGroup (text : List Char) : Option (Nat × List Char) :=
  if (spanDigitsIn 16 text).1.length ≤ 4 then readNumber 16 65536 text else none

def readChar (c : Char) : List Char → Option (List Char)
  | d :: rest => if d = c then some rest else none
  | [] => none

def readOctets (text : List Char) : Option (List Nat × List Char) := do
  let (a, text) ← readOctet text
  let (b, text) ← readOctet (← readChar '.' text)
  let (c, text) ← readOctet (← readChar '.' text)
  let (d, text) ← readOctet (← readChar '.' text)
  some ([a, b, c, d], text)

/-- The two groups that an address of version 4 makes. -/
def groupsOfOctets : List Nat → List Nat
  | [a, b, c, d] => [a * 256 + b, c * 256 + d]
  | _ => []

/-- What stands before a group: a colon, except before the first. -/
def readSeparator (first : Bool) (text : List Char) : Option (List Char) :=
  if first then some text else readChar ':' text

/-- As many groups as there are, up to a number, and whether they end in an address of
version 4, for which there has to be room. -/
def readGroups (first : Bool) : Nat → List Char → (List Nat × Bool) × List Char
  | 0, text => (([], false), text)
  | room + 1, text =>
    let octets? := if room = 0 then none else (readSeparator first text).bind readOctets
    match octets? with
    | some (octets, rest) => ((groupsOfOctets octets, true), rest)
    | none =>
      match (readSeparator first text).bind readGroup with
      | some (group, rest) =>
        let ((groups, embedded), rest) := readGroups false room rest
        ((group :: groups, embedded), rest)
      | none => (([], false), text)

def readAddress6 (text : List Char) : Option (List Nat × List Char) :=
  let ((head, embedded), text) := readGroups true 8 text
  if head.length = 8 then some (head, text)
  else if embedded then none
  else do
    let text ← readChar ':' (← readChar ':' text)
    let ((tail, _), text) := readGroups true (7 - head.length) text
    some (head ++ List.replicate (8 - head.length - tail.length) 0 ++ tail, text)

/-- The number of a service behind its colon. -/
def readService (text : List Char) : Option (Nat × List Char) := do
  readNumber 10 65536 (← readChar ':' text)

/-- The number of a scope behind its sign; zero when there is none. -/
def readScope (text : List Char) : Nat × List Char :=
  ((readChar '%' text).bind (readNumber 10 4294967296)).getD (0, text)

def readSocket4 (text : List Char) : Option (SocketAddress × List Char) := do
  let (octets, text) ← readOctets text
  let (service, text) ← readService text
  some (v4 octets service, text)

def readSocket6 (text : List Char) : Option (SocketAddress × List Char) := do
  let (groups, text) ← readAddress6 (← readChar '[' text)
  let (scope, text) := readScope text
  let (service, text) ← readService (← readChar ']' text)
  some (v6 groups scope service, text)

/-- The address that a whole text is. -/
def parse? (text : String) : Option SocketAddress :=
  match (readSocket4 text.toList).orElse fun _ => readSocket6 text.toList with
  | some (address, []) => some address
  | _ => none

def octetsText (octets : List Nat) : String :=
  ".".intercalate (octets.map Nat.repr)

/-- The text of groups with colons between them. -/
def groupsText (groups : List Nat) : String :=
  ":".intercalate (groups.map fun group => String.ofList (Nat.toDigits 16 group))

/-- How many zero groups stand in front. -/
def leadingZeros : List Nat → Nat
  | 0 :: rest => leadingZeros rest + 1
  | _ => 0

/-- The start and the length of the first of the longest runs of zero groups, where the
head of the groups has the given index. -/
def longestRun (index : Nat) : List Nat → Nat × Nat
  | [] => (index, 0)
  | group :: rest =>
    let here := leadingZeros (group :: rest)
    let later := longestRun (index + 1) rest
    if later.2 ≤ here then (index, here) else later

def address6Text (groups : List Nat) : String :=
  match groups with
  | [0, 0, 0, 0, 0, 0xffff, high, low] =>
    "::ffff:" ++ octetsText [high / 256, high % 256, low / 256, low % 256]
  | _ =>
    let (start, length) := longestRun 0 groups
    if 1 < length then
      groupsText (groups.take start) ++ "::" ++ groupsText (groups.drop (start + length))
    else groupsText groups

def text : SocketAddress → String
  | v4 octets service => octetsText octets ++ ":" ++ Nat.repr service
  | v6 groups scope service =>
    let scope := if scope = 0 then "" else "%" ++ Nat.repr scope
    "[" ++ address6Text groups ++ scope ++ "]:" ++ Nat.repr service

end SocketAddress
end ProviderKit
