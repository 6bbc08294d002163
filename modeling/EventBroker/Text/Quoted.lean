import EventBroker.Text.Hex
import EventBroker.Text.Printable

/-! # Quoted text in messages

A text in a message stands in double quotes. Quotes, backslashes, the common control characters and
the null character have short escapes; what is not printable, and what would combine with the
character before it, is written by its code point.
-/
set_option autoImplicit false

namespace EventBroker.Text

def quoteChar (c : Char) : List Char :=
  if c = '"' then ['\\', '"']
  else if c = '\\' then ['\\', '\\']
  else if c = '\n' then ['\\', 'n']
  else if c = '\r' then ['\\', 'r']
  else if c = '\t' then ['\\', 't']
  else if c.toNat = 0 then ['\\', '0']
  else if isCombining c || !isPrintable c then
    ['\\', 'u', '\x7b'] ++ Hex.ofNat c.toNat ++ ['\x7d']
  else [c]

def quote (s : String) : String := String.ofList ('"' :: s.toList.flatMap quoteChar ++ ['"'])

end EventBroker.Text
