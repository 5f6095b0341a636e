import DocumentQuery.Source.Failure
import DocumentQuery.Text.Expression

/-!
# Globs

A glob describes whole file paths: `*` stands for any run of characters, `?` for any one
character, and every other character for itself. Neither wildcard takes a line break. A glob is
turned into an expression between the two anchors.
-/

namespace DocumentQuery

structure Glob where
  expression : Expression
deriving DecidableEq

namespace Glob

def translate (c : Char) : List Char :=
  if c = '*' then ['.', '*'] else if c = '?' then ['.'] else Expression.escape c

def expressionText (text : String) : String :=
  String.ofList ('^' :: text.toList.flatMap translate ++ ['$'])

/-- The glob a text describes, if its expression can be compiled. -/
def ofText (compiles : Expression → Bool) (text : String) : Except Failure Glob :=
  match Expression.ofText? (expressionText text) with
  | none => .error (.pattern "pattern makes no expression")
  | some expression =>
    if compiles expression then .ok ⟨expression⟩
    else .error (.pattern "pattern exceeds the size limit")

def accepts (glob : Glob) (text : String) : Bool := glob.expression.isMatch text

end Glob
end DocumentQuery
