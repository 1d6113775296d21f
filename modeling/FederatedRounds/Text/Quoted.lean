import FederatedRounds.Number.Hexadecimal
import FederatedRounds.Text.Visible
/-! A text between quotes in which every character shows. Hidden characters are given by their code
points, some by a letter of their own. -/
namespace FederatedRounds.Text

def escapeHidden : Char → List Char
  | '\x00' => ['\\', '0']
  | '\t' => ['\\', 't']
  | '\n' => ['\\', 'n']
  | '\r' => ['\\', 'r']
  | '"' => ['\\', '"']
  | '\\' => ['\\', '\\']
  | c =>
    if isVisible c then [c]
    else '\\' :: 'u' :: '\x7b' :: (Hexadecimal.spell c.toNat ++ ['\x7d'])

def quoted (text : String) : String :=
  String.ofList ('"' :: (text.toList.flatMap escapeHidden ++ ['"']))

end FederatedRounds.Text
