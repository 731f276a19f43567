import MonkeyLang.Text.Unprintable

/-!
A text between double quotes, on one line and free of characters that cannot be seen.
-/
namespace MonkeyLang

def escape : Char → String
  | '"' => "\\\""
  | '\\' => "\\\\"
  | '\n' => "\\n"
  | '\r' => "\\r"
  | '\t' => "\\t"
  | '\x00' => "\\0"
  | c =>
    if isUnprintable c then "\\u\x7b" ++ String.ofList (Nat.toDigits 16 c.toNat) ++ "\x7d"
    else String.singleton c

def quoted (cs : List Char) : String :=
  "\"" ++ String.join (cs.map escape) ++ "\""

end MonkeyLang
