import Tickle.Error
import Tickle.ListText
import Tickle.Number.Numeral

/-!
List commands. Their values are list text; indexing goes through nested lists.
-/

namespace Tickle.Lists

def element (node : Node) (list index : String) : Except Error String :=
  match Number.readInt? index with
  | none => .error (.execution .listIndexNotInteger node.site)
  | some i =>
    let elements := ListText.parse list
    if 0 ≤ i then
      match elements[i.toNat]? with
      | some e => .ok e
      | none => .error (.execution .listIndexOutside node.site)
    else .error (.execution .listIndexOutside node.site)

/-- Applies indices in turn; each operand is itself a list of indices. -/
def index (node : Node) (list : String) (operands : List String) : Except Error String :=
  (operands.flatMap ListText.parse).foldlM (element node) list

/-- Cuts a text into list text: at blanks, at the given characters, or between all characters if
none are given. -/
def split (text : String) (separators : Option String) : String :=
  ListText.format <| match separators with
    | none => ListText.parse text
    | some "" => text.toList.map Char.toString
    | some separators => ListText.split separators text

/-- Appends elements to list text, with a space in front of each unless the list is empty. -/
def append (list : String) (elements : List String) : String :=
  elements.foldl (fun list e => if list.isEmpty then e else list ++ " " ++ e) list

end Tickle.Lists
