import TreeQuery.Selector.Combinator
import TreeQuery.Text.Quoted

/-!
# Selector errors

A selector is refused for one of four causes. Each carries the text that shows it, and `message`
words it for a reader.
-/
namespace TreeQuery

/-- Why a selector is refused. -/
inductive SelectorError where
  /-- No token, combinator or bracket clause can be made out in this text. -/
  | malformed (remaining : String)
  /-- This token names more than one id. -/
  | multipleIds (token : String)
  /-- This argument of a counting pseudo-class is no expression. -/
  | invalidNth (expression : String)
  /-- This combinator cannot be searched for. -/
  | unsupported (combinator : Combinator)
  deriving DecidableEq, Repr

namespace SelectorError

/-- A text in quotes, as messages show it. -/
def shown (text : String) : String := String.ofList (Text.quoted text.toList)

/-- What the error says to a reader. -/
def message : SelectorError → String
  | malformed remaining =>
    "malformed selector: cannot extract a token from " ++ shown remaining
  | multipleIds token =>
    "only one #id is allowed per simple selector, found several in " ++ shown token
  | invalidNth expression =>
    "invalid nth-child expression: nth-child(" ++ expression ++ ")"
  | unsupported combinator =>
    "the '" ++ combinator.symbol ++ "' combinator is not supported"

end SelectorError

end TreeQuery
