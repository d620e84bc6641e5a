import LeaseElection.Text.Printable

/-!
# Quoted text

Text stands in messages between double quotes.  What could not be seen there, or
would end the quotation, is written with a backslash.
-/

namespace LeaseElection

namespace Quoted

/-- A code point in hexadecimal, as in `\u{7f}`. -/
def escapeCode (c : Char) : List Char :=
  '\\' :: 'u' :: '\x7b' :: (Nat.toDigits 16 c.toNat ++ ['\x7d'])

def escape (c : Char) : List Char :=
  match c with
  | '\x00' => ['\\', '0']
  | '\t' => ['\\', 't']
  | '\r' => ['\\', 'r']
  | '\n' => ['\\', 'n']
  | '\\' => ['\\', '\\']
  | '"' => ['\\', '"']
  | c => if isShown c then [c] else escapeCode c

def quote (s : String) : String := String.ofList ('"' :: s.toList.flatMap escape ++ ['"'])

end Quoted

end LeaseElection
