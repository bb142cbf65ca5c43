/-!
# Texts within texts
-/

namespace SourceFacts.Text

/-- Splits at the first place where the separator stands. -/
def splitAt? (separator : List Char) : List Char → Option (List Char × List Char)
  | [] => if separator.isEmpty then some ([], []) else none
  | c :: rest =>
    if separator.isPrefixOf (c :: rest) then some ([], (c :: rest).drop separator.length)
    else (splitAt? separator rest).map fun (a, b) => (c :: a, b)

/-- Whether a text stands somewhere in another. -/
def occursIn (part whole : String) : Bool := (splitAt? part.toList whole.toList).isSome

/-- What follows a text at the front of another. -/
def afterFront? : (front whole : List Char) → Option (List Char)
  | [], s => some s
  | _ :: _, [] => none
  | c :: front, d :: s => if c = d then afterFront? front s else none

/-- What stands before the first such character, or everything. -/
def before (c : Char) (s : String) : String := String.ofList (s.toList.takeWhile (· != c))

end SourceFacts.Text
