import DocumentQuery.Text.Hidden

/-!
# Quoted texts

A text is shown to a reader between double quotes, on one line, with every character
visible: quotes and backslashes are escaped, and characters that do not show are
spelled by their code point.
-/

namespace DocumentQuery
namespace Text

def quotedChar (c : Char) : List Char :=
  match c with
  | '\x00' => ['\\', '0']
  | '\t' => ['\\', 't']
  | '\r' => ['\\', 'r']
  | '\n' => ['\\', 'n']
  | '\\' => ['\\', '\\']
  | '"' => ['\\', '"']
  | c =>
    if isHidden c then
      ['\\', 'u', '\x7b'] ++ Nat.toDigits 16 c.toNat ++ ['\x7d']
    else [c]

def quoted (text : String) : String :=
  String.ofList ('"' :: text.toList.flatMap quotedChar ++ ['"'])

end Text
end DocumentQuery
