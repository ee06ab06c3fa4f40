import ActorAudit.Text.Unprintable

/-!
# Quoted texts

A text between double quotes, on one line: quotes and backslashes are escaped, and what cannot be
printed is shown by its code point.
-/

namespace ActorAudit.Text

def quotedChar (c : Char) : List Char :=
  match c with
  | '\x00' => ['\\', '0']
  | '\t' => ['\\', 't']
  | '\r' => ['\\', 'r']
  | '\n' => ['\\', 'n']
  | '"' => ['\\', '"']
  | '\\' => ['\\', '\\']
  | c =>
    if isUnprintable c then "\\u\x7b".toList ++ Nat.toDigits 16 c.toNat ++ ['}'] else [c]

def quoted (s : String) : String :=
  String.ofList ('"' :: s.toList.flatMap quotedChar ++ ['"'])

end ActorAudit.Text
