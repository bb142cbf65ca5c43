/-!
# Reading bytes as UTF-8

Bytes that are no UTF-8 are refused at the first sequence at fault, with its place and the
number of bytes that belong to it: as many as could begin some character.
-/

namespace SourceFacts.Text.Utf8

/-- Why bytes are no text: the place of the first bad sequence, and how many bytes it has unless
the text merely ends too early. -/
structure Fault where
  place : Nat
  length : Option Nat
deriving Repr, BEq, DecidableEq, Inhabited

/-- The text of a fault. -/
def Fault.message (f : Fault) : String :=
  match f.length with
  | some n =>
    "invalid utf-8 sequence of " ++ toString n ++ " bytes from index " ++ toString f.place
  | none => "incomplete utf-8 byte sequence from index " ++ toString f.place

/-- Whether a byte continues a character. -/
def isRest (b : Nat) : Bool := 0x80 ≤ b && b < 0xC0

/-- The bounds of the second byte after a first byte, and how many bytes follow the first. -/
def shape (b : Nat) : Option (Nat × Nat × Nat) :=
  if 0xC2 ≤ b && b ≤ 0xDF then some (0x80, 0xBF, 1)
  else if b = 0xE0 then some (0xA0, 0xBF, 2)
  else if b = 0xED then some (0x80, 0x9F, 2)
  else if 0xE1 ≤ b && b ≤ 0xEF then some (0x80, 0xBF, 2)
  else if b = 0xF0 then some (0x90, 0xBF, 3)
  else if 0xF1 ≤ b && b ≤ 0xF3 then some (0x80, 0xBF, 3)
  else if b = 0xF4 then some (0x80, 0x8F, 3)
  else none

/-- The fault in what follows the first two bytes, given how many more should follow and how
many were read. -/
def restFault (place : Nat) : (more read : Nat) → List Nat → Option Fault
  | 0, _, _ => none
  | _ + 1, _, [] => some ⟨place, none⟩
  | more + 1, read, b :: rest =>
    if isRest b then restFault place more (read + 1) rest else some ⟨place, some read⟩

/-- The fault of the character that starts with the given byte. -/
def characterFault (place first : Nat) (rest : List Nat) : Option Fault :=
  match shape first with
  | none => some ⟨place, some 1⟩
  | some (low, high, more) =>
    match rest with
    | [] => some ⟨place, none⟩
    | second :: rest =>
      if low ≤ second && second ≤ high then restFault place (more - 1) 2 rest
      else some ⟨place, some 1⟩

/-- The first fault in bytes from a place on. -/
def faultFrom (place : Nat) : List Nat → Option Fault
  | [] => none
  | b :: rest =>
    if b < 0x80 then faultFrom (place + 1) rest
    else
      match characterFault place b rest with
      | some f => some f
      | none =>
        let n := ((shape b).map (·.2.2)).getD 0
        faultFrom (place + 1 + n) (rest.drop n)
termination_by bytes => bytes.length
decreasing_by
  all_goals simp only [List.length_drop, List.length_cons]
  all_goals omega

/-- The first fault in bytes, if they are no UTF-8. -/
def fault? (bytes : ByteArray) : Option Fault :=
  if (String.fromUTF8? bytes).isSome then none
  else faultFrom 0 (bytes.toList.map UInt8.toNat)

/-- The text that bytes stand for. -/
def decode (bytes : ByteArray) : Except Fault String :=
  match String.fromUTF8? bytes with
  | some s => .ok s
  | none => .error ((faultFrom 0 (bytes.toList.map UInt8.toNat)).getD ⟨0, none⟩)

end SourceFacts.Text.Utf8
