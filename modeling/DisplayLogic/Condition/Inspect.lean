import DisplayLogic.Condition.Basic
import DisplayLogic.Text.Quoted

/-!
# Diagnostic texts

What diagnostics show for a constant, a feed or an element. Constants show their kind and their
value, a text in its quoted form; feeds show their kind and label; elements show only how many
members their branches have.
-/

namespace DisplayLogic

def Constant.inspect : Constant → String
  | .text s => "String(" ++ Text.quote s ++ ")"
  | .number n => "Number(" ++ n.inspect ++ ")"
  | .boolean b => "Boolean(" ++ booleanText b ++ ")"

def Feed.inspect (f : Feed) : String := f.kind.name ++ " \x7b" ++ f.label ++ "\x7d"

def Source.inspect : Source → String
  | .constant c => c.inspect
  | .feed f => f.inspect
  | .element _ positive negative =>
    "ConditionalElement \x7b positive: " ++ toString positive.length ++
      ", negative: " ++ toString negative.length ++ " \x7d"

end DisplayLogic
