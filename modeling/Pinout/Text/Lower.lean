import Pinout.Unicode.Casing

/-! # Lower case

Names are compared in lower case. Two letters do not map one to one: a capital sigma becomes `ς` at
the end of a word and `σ` elsewhere, and a capital dotted i keeps its dot as a combining mark. The
end of a word is judged by the nearest characters on both sides that are not ignored for case.
-/

namespace Pinout.Text

open Unicode

/-- Whether the first character that is not ignored for case is a cased letter. -/
def startsCased (cs : List Char) : Bool :=
  match cs.dropWhile isCaseIgnorable with
  | [] => false
  | c :: _ => isCased c

/-- The lower-case form of a text that stands after `before`, given nearest first. -/
def lowerAfter (before : List Char) : List Char → List Char
  | [] => []
  | c :: cs =>
    let lowered :=
      if c = 'Σ' then
        if startsCased before && !startsCased cs then ['ς'] else ['σ']
      else if c = 'İ' then
        ['i', '\u0307']
      else
        [lowerChar c]
    lowered ++ lowerAfter (c :: before) cs

def lower (s : String) : String :=
  .ofList (lowerAfter [] s.toList)

end Pinout.Text
